import CognoChain.Model.Mentions

/-!
# Mentions bind to the picked accounts

A draft holds the picked tokens in order, each followed by a space.  Where the
displays are distinct and no longer display stands at the place of a token,
serialising replaces every token by its own address, and parsing the body finds
the addresses again.  A longer display that continues a token with the text
after it takes the token over.
-/

namespace CognoChain.Client

/-! ## Picks and drafts -/

structure Pick where
  displayName : Option Text
  ss58 : Text
deriving DecidableEq

def pickAll (charset : Charset) (picks : List Pick) : List MentionRef :=
  picks.foldl (fun refs p =>
    refs ++ [⟨p.ss58, pickMentionDisplay charset p.displayName p.ss58 refs⟩]) []

def written : List (MentionRef × Text) → Text
  | [] => []
  | (m, after) :: tokens => atSign :: (m.display ++ space :: (after ++ written tokens))

def stored : List (MentionRef × Text) → Text
  | [] => []
  | (m, after) :: tokens => atSign :: (m.ss58 ++ space :: (after ++ stored tokens))

/-- No display longer than that of a token stands at its place. -/
def Undisputed (charset : Charset) (refs : List MentionRef) : List (MentionRef × Text) → Prop
  | [] => True
  | (m, after) :: tokens =>
      (∀ other ∈ refs, m.display.length < other.display.length →
        standsAt charset (m.display ++ space :: (after ++ written tokens)) other.display = false) ∧
      Undisputed charset refs tokens

section Picking

variable {charset : Charset}

theorem foldl_pick_ss58 (picks : List Pick) (refs : List MentionRef) :
    (picks.foldl (fun refs p =>
        refs ++ [⟨p.ss58, pickMentionDisplay charset p.displayName p.ss58 refs⟩]) refs).map
      MentionRef.ss58 = refs.map MentionRef.ss58 ++ picks.map Pick.ss58 := by
  induction picks generalizing refs with
  | nil => simp
  | cons p picks ih => simp [ih]

theorem pickAll_ss58 (picks : List Pick) :
    (pickAll charset picks).map MentionRef.ss58 = picks.map Pick.ss58 :=
  foldl_pick_ss58 picks []

theorem truncateSs58_ne_nil {address : Text} (h : address ≠ []) : truncateSs58 address ≠ [] := by
  unfold truncateSs58
  split_ifs
  · exact h
  · cases address with
    | nil => exact absurd rfl h
    | cons c rest => simp

theorem pickMentionDisplay_ne_nil {displayName : Option Text} {ss58 : Text}
    {existing : List MentionRef} (h : ss58 ≠ []) :
    pickMentionDisplay charset displayName ss58 existing ≠ [] := by
  have hlabel : mentionLabel charset displayName ss58 ≠ [] := by
    unfold mentionLabel
    dsimp only
    split_ifs with hempty
    · exact truncateSs58_ne_nil h
    · simpa using hempty
  unfold pickMentionDisplay
  dsimp only
  split_ifs
  · simp [hlabel]
  · exact hlabel

theorem pickAll_display_ne_nil {picks : List Pick} (hpicks : ∀ p ∈ picks, p.ss58 ≠ []) :
    ∀ m ∈ pickAll charset picks, m.display ≠ [] := by
  unfold pickAll
  refine List.foldlRecOn (motive := fun refs : List MentionRef => ∀ m ∈ refs, m.display ≠ [])
    picks _ (by simp) ?_
  intro refs hrefs p hp m hm
  rcases List.mem_append.mp hm with hm | hm
  · exact hrefs m hm
  · rw [List.mem_singleton.mp hm]
    exact pickMentionDisplay_ne_nil (hpicks p hp)

end Picking

/-! ## The order of the displays -/

section Ordering

variable {refs : List MentionRef}

theorem foldl_byDisplay {kept : List MentionRef} (hfull : ∀ m ∈ refs, m.display ≠ [])
    (hdistinct : ((kept ++ refs).map MentionRef.display).Nodup) :
    refs.foldl (fun kept m =>
        if m.display.isEmpty || kept.any (fun k => decide (k.display = m.display)) then kept
        else kept ++ [m]) kept = kept ++ refs := by
  induction refs generalizing kept with
  | nil => simp
  | cons m refs ih =>
    have hnew : ∀ k ∈ kept, k.display ≠ m.display := by
      intro k hk heq
      rw [List.map_append, List.nodup_append] at hdistinct
      exact hdistinct.2.2 k.display (List.mem_map_of_mem hk) m.display (by simp) heq
    have hkeep : (m.display.isEmpty ||
        kept.any (fun k => decide (k.display = m.display))) = false := by
      have hempty : m.display.isEmpty = false := by simpa using hfull m (by simp)
      simpa [hempty] using hnew
    rw [List.foldl_cons, hkeep, if_neg (by simp)]
    rw [ih (fun k hk => hfull k (List.mem_cons_of_mem _ hk))]
    · simp
    · simpa using hdistinct

theorem byDisplay_eq_self (hfull : ∀ m ∈ refs, m.display ≠ [])
    (hdistinct : (refs.map MentionRef.display).Nodup) : byDisplay refs = refs := by
  rw [byDisplay, foldl_byDisplay hfull (by simpa using hdistinct), List.nil_append]

theorem displays_sorted (refs : List MentionRef) :
    (displays refs).Pairwise (fun a b => b.display.length ≤ a.display.length) := by
  have : Std.Total (fun a b : MentionRef => b.display.length ≤ a.display.length) :=
    ⟨fun a b => Nat.le_total _ _⟩
  have : IsTrans MentionRef (fun a b => b.display.length ≤ a.display.length) :=
    ⟨fun a b c hab hbc => hbc.trans hab⟩
  exact List.pairwise_insertionSort _ _

theorem mem_displays (hfull : ∀ m ∈ refs, m.display ≠ [])
    (hdistinct : (refs.map MentionRef.display).Nodup) {m : MentionRef} :
    m ∈ displays refs ↔ m ∈ refs := by
  rw [displays, List.mem_insertionSort, byDisplay_eq_self hfull hdistinct]

/-- Of refs with the longest display first, a search finds the longest that
satisfies it. -/
theorem find?_longest {l : List MentionRef} {p : MentionRef → Bool} {r : MentionRef}
    (hsorted : l.Pairwise (fun a b => b.display.length ≤ a.display.length)) (hmem : r ∈ l)
    (hr : p r = true)
    (hlongest : ∀ m ∈ l, p m = true → r.display.length ≤ m.display.length → m = r) :
    l.find? p = some r := by
  cases hfind : l.find? p with
  | none => exact absurd hr (by simpa using List.find?_eq_none.mp hfind r hmem)
  | some m =>
    obtain ⟨hm, before, after, rfl, hbefore⟩ := List.find?_eq_some_iff_append.mp hfind
    congr 1
    rcases List.mem_append.mp hmem with hearly | hlate
    · have hfails := hbefore r hearly
      rw [hr] at hfails
      cases hfails
    · rcases List.mem_cons.mp hlate with rfl | hlate
      · rfl
      · have hle := (List.pairwise_cons.mp (List.pairwise_append.mp hsorted).2.1).1 r hlate
        exact hlongest m (by simp) hm hle

end Ordering

/-! ## Serialising -/

section Expanding

variable {charset : Charset} {refs : List MentionRef}

theorem standsAt_self (charset : Charset) (display after : Text) :
    standsAt charset (display ++ space :: after) display = true := by
  have hspace : isNameCont charset space = false := rfl
  simp [standsAt, hspace]

theorem eq_of_standsAt {display other after : Text}
    (h : standsAt charset (display ++ space :: after) other = true)
    (hlength : other.length = display.length) : other = display := by
  rw [standsAt, Bool.and_eq_true, List.isPrefixOf_iff_prefix] at h
  exact (List.prefix_of_prefix_length_le h.1 (List.prefix_append _ _) hlength.le).eq_of_length
    hlength

theorem expand_plain {plain : Text} (hplain : atSign ∉ plain) (rest : Text) :
    expand charset refs 0 (plain ++ rest) = plain ++ expand charset refs 0 rest := by
  induction plain with
  | nil => rfl
  | cons c plain ih =>
    rw [List.mem_cons, not_or] at hplain
    have hc : c ≠ atSign := fun heq => hplain.1 heq.symm
    rw [List.cons_append, expand, if_neg hc, ih hplain.2]
    rfl

theorem expand_skip (display rest : Text) :
    expand charset refs display.length (display ++ rest) = expand charset refs 0 rest := by
  induction display with
  | nil => rfl
  | cons c display ih => exact ih

/-- At a token the refs are searched from the longest display down, and the first
that stands there is the token's own. -/
theorem find?_token {m : MentionRef} {after : Text} (hfull : ∀ m ∈ refs, m.display ≠ [])
    (hdistinct : (refs.map MentionRef.display).Nodup) (hmem : m ∈ refs)
    (hundisputed : ∀ other ∈ refs, m.display.length < other.display.length →
      standsAt charset (m.display ++ space :: after) other.display = false) :
    (displays refs).find? (fun other =>
      standsAt charset (m.display ++ space :: after) other.display) = some m := by
  refine find?_longest (displays_sorted refs) ((mem_displays hfull hdistinct).mpr hmem)
    (standsAt_self charset m.display after) ?_
  intro other hother hstands hle
  have hother := (mem_displays hfull hdistinct).mp hother
  rcases Nat.lt_or_eq_of_le hle with hlt | heq
  · rw [hundisputed other hother hlt] at hstands
    cases hstands
  · exact List.inj_on_of_nodup_map hdistinct hother hmem (eq_of_standsAt hstands heq.symm)

theorem expand_written {tokens : List (MentionRef × Text)} (hfull : ∀ m ∈ refs, m.display ≠ [])
    (hdistinct : (refs.map MentionRef.display).Nodup) (hmem : ∀ t ∈ tokens, t.1 ∈ refs)
    (hplain : ∀ t ∈ tokens, atSign ∉ t.2) (hundisputed : Undisputed charset refs tokens) :
    expand charset (displays refs) 0 (written tokens) = stored tokens := by
  induction tokens with
  | nil => rfl
  | cons token tokens ih =>
    obtain ⟨m, after⟩ := token
    have hfound := find?_token hfull hdistinct (hmem (m, after) (by simp)) hundisputed.1
    have hspaced : atSign ∉ space :: after := by
      rw [List.mem_cons, not_or]
      exact ⟨by decide, hplain (m, after) (by simp)⟩
    have hlater := ih (fun t ht => hmem t (List.mem_cons_of_mem _ ht))
      (fun t ht => hplain t (List.mem_cons_of_mem _ ht)) hundisputed.2
    have hrest : expand charset (displays refs) 0 (space :: (after ++ written tokens)) =
        space :: (after ++ stored tokens) := by
      rw [← List.cons_append, expand_plain hspaced, hlater, List.cons_append]
    rw [written, stored, expand, if_pos rfl, hfound]
    dsimp only
    rw [expand_skip, hrest]

end Expanding

theorem serializeMentions_written {charset : Charset} {refs : List MentionRef} {lead : Text}
    {tokens : List (MentionRef × Text)} (htokens : tokens.map Prod.fst = refs)
    (hfull : ∀ m ∈ refs, m.display ≠ []) (hdistinct : (refs.map MentionRef.display).Nodup)
    (hlead : atSign ∉ lead) (hplain : ∀ t ∈ tokens, atSign ∉ t.2)
    (hundisputed : Undisputed charset refs tokens) :
    serializeMentions charset (lead ++ written tokens) refs = lead ++ stored tokens := by
  have hmem : ∀ t ∈ tokens, t.1 ∈ refs := by
    intro t ht
    rw [← htokens]
    exact List.mem_map_of_mem ht
  cases tokens with
  | nil =>
    have hnone : refs = [] := htokens.symm
    simp [serializeMentions, hnone, written, stored]
  | cons token tokens =>
    have hsome : refs ≠ [] := List.ne_nil_of_mem (hmem token (by simp))
    have hdisplays : displays refs ≠ [] :=
      List.ne_nil_of_mem ((mem_displays hfull hdistinct).mpr (hmem token (by simp)))
    have hat : (lead ++ written (token :: tokens)).contains atSign = true := by
      simp [written]
    rw [serializeMentions, hat, if_neg (by simpa using hsome), if_neg (by simpa using hdisplays),
      expand_plain hlead, expand_written hfull hdistinct hmem hplain hundisputed]

/-! ## Parsing -/

section Parsing

variable {charset : Charset} {address : Text}

theorem parseFrom_plain {plain : Text} (hplain : atSign ∉ plain) (index : ℕ) (rest : Text) :
    parseFrom charset index (plain ++ rest) = parseFrom charset (index + plain.length) rest := by
  induction plain generalizing index with
  | nil => rfl
  | cons c plain ih =>
    rw [List.mem_cons, not_or] at hplain
    have hc : c ≠ atSign := fun heq => hplain.1 heq.symm
    rw [List.cons_append, parseFrom, if_neg hc, Option.toList_none, List.nil_append, ih hplain.2,
      List.length_cons, Nat.add_assoc, Nat.add_comm 1]

section

variable (h : charset.canonical address = true)
include h

theorem atSign_notMem_of_canonical :
    atSign ∉ address := by
  intro hmem
  have hbase := charset.canonical_base58 address h atSign hmem
  revert hbase
  decide

theorem validSs58Prefix_self :
    validSs58Prefix charset address = some (address, address.length) := by
  obtain ⟨hmin, hmax⟩ := charset.canonical_length address h
  have hcount : min address.length ss58MaxLen + 1 - ss58MinLen =
      (address.length - ss58MinLen) + 1 := by omega
  have hlast : ss58MinLen + 1 * (address.length - ss58MinLen) = address.length := by omega
  rw [validSs58Prefix, hcount, List.range'_concat, hlast, List.reverse_append,
    List.reverse_singleton, List.singleton_append, List.findSome?_cons]
  simp [normalizeSs58, h]

theorem mentionAt_address (index : ℕ) :
    mentionAt charset index address =
      some ⟨index, 1 + address.length, address, atSign :: address⟩ := by
  rw [mentionAt, if_pos (charset.canonical_length address h).1, validSs58Prefix_self h]
  simp

theorem takeWhile_address (rest : Text) :
    (address ++ space :: rest).takeWhile isBase58 = address := by
  have hspace : isBase58 space = false := by decide
  rw [List.takeWhile_append_of_pos (charset.canonical_base58 address h),
    List.takeWhile_cons_of_neg (by simp [hspace]), List.append_nil]

theorem parseFrom_address (index : ℕ) (rest : Text) :
    parseFrom charset index (atSign :: (address ++ space :: rest)) =
      ⟨index, 1 + address.length, address, atSign :: address⟩ ::
        parseFrom charset (index + 1 + address.length) (space :: rest) := by
  rw [parseFrom, if_pos rfl, takeWhile_address h, mentionAt_address h, Option.toList_some,
    parseFrom_plain (atSign_notMem_of_canonical h)]
  rfl

end

theorem parseFrom_stored {tokens : List (MentionRef × Text)}
    (hcanonical : ∀ t ∈ tokens, charset.canonical t.1.ss58 = true)
    (hplain : ∀ t ∈ tokens, atSign ∉ t.2) (index : ℕ) :
    (parseFrom charset index (stored tokens)).map ParsedMention.ss58 =
      tokens.map (fun t => t.1.ss58) := by
  induction tokens generalizing index with
  | nil => rfl
  | cons token tokens ih =>
    obtain ⟨m, after⟩ := token
    have hspaced : atSign ∉ space :: after := by
      rw [List.mem_cons, not_or]
      exact ⟨by decide, hplain (m, after) (by simp)⟩
    rw [stored, parseFrom_address (hcanonical (m, after) (by simp)), ← List.cons_append,
      parseFrom_plain hspaced, List.map_cons, List.map_cons,
      ih (fun t ht => hcanonical t (List.mem_cons_of_mem _ ht))
        (fun t ht => hplain t (List.mem_cons_of_mem _ ht))]

end Parsing

def digitAddresses : List Text :=
  [List.replicate 48 0x35, List.replicate 48 0x36, List.replicate 48 0x37]

def digitCharset : Charset where
  sanitizeInline := id
  isLetterOrNumber _ := false
  canonical a := decide (a ∈ digitAddresses)
  canonical_base58 := by
    intro a ha
    have hall : digitAddresses.all (·.all isBase58) = true := by decide +kernel
    exact List.all_eq_true.mp (List.all_eq_true.mp hall a (of_decide_eq_true ha))
  canonical_length := by
    intro a ha
    have hall : ∀ a ∈ digitAddresses, ss58MinLen ≤ a.length ∧ a.length ≤ ss58MaxLen := by
      decide +kernel
    exact hall a (of_decide_eq_true ha)

def elonPicks : List Pick :=
  [⟨some (units "elon"), List.replicate 48 0x35⟩,
    ⟨some (units "elon musk"), List.replicate 48 0x36⟩]

/-- A namesake picked second, after an account that goes by the display it is given. -/
def namesakePicks : List Pick :=
  [⟨some (units "bob (5555…5555)"), List.replicate 48 0x36⟩,
    ⟨some (units "bob"), List.replicate 48 0x37⟩, ⟨some (units "bob"), List.replicate 48 0x35⟩]

def tokensOf (picks : List Pick) (texts : List String) : List (MentionRef × Text) :=
  (pickAll digitCharset picks).zip (texts.map units)

end CognoChain.Client
