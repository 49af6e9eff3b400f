import Mathlib.Data.List.Sort
import Mathlib.Tactic

/-!
# Mentions in a draft

A mention is shown in the composer as `@` and a display, and stored in the body
as `@` and an address.  Texts are UTF-16 code units, as the app indexes them.
What the app takes from Unicode tables and from the address checksum is given.
-/

namespace CognoChain.Client

abbrev Text := List UInt16

/-- A text of the basic plane. -/
def units (s : String) : Text := s.toList.map (fun c => UInt16.ofNat c.toNat)

def atSign : UInt16 := 0x40

def space : UInt16 := 0x20

/-! ## Addresses -/

def isBase58 (c : UInt16) : Bool :=
  (decide (0x31 ≤ c) && decide (c ≤ 0x39)) || (decide (0x41 ≤ c) && decide (c ≤ 0x48)) ||
    (decide (0x4a ≤ c) && decide (c ≤ 0x4e)) || (decide (0x50 ≤ c) && decide (c ≤ 0x5a)) ||
    (decide (0x61 ≤ c) && decide (c ≤ 0x6b)) || (decide (0x6d ≤ c) && decide (c ≤ 0x7a))

def ss58MaxLen : ℕ := 49

def ss58MinLen : ℕ := 44

/-- What is taken from the character tables and from the address checksum.  A
canonical address is base 58 and has one of the lengths the parser tries. -/
structure Charset where
  sanitizeInline : Text → Text
  isLetterOrNumber : UInt16 → Bool
  canonical : Text → Bool
  canonical_base58 : ∀ a, canonical a = true → ∀ c ∈ a, isBase58 c = true
  canonical_length : ∀ a, canonical a = true → ss58MinLen ≤ a.length ∧ a.length ≤ ss58MaxLen

/-- An address of another prefix is not taken for one here. -/
def normalizeSs58 (charset : Charset) (value : Text) : Option Text :=
  if charset.canonical value then some value else none

def truncateSs58 (address : Text) : Text :=
  if address.length ≤ 9 then address
  else address.take 4 ++ units "…" ++ address.drop (address.length - 4)

/-! ## Picking -/

structure MentionRef where
  ss58 : Text
  display : Text
deriving DecidableEq

def mentionLabel (charset : Charset) (displayName : Option Text) (ss58 : Text) : Text :=
  let collapsed := charset.sanitizeInline (displayName.getD [])
  if collapsed.isEmpty then truncateSs58 ss58 else collapsed

def pickMentionDisplay (charset : Charset) (displayName : Option Text) (ss58 : Text)
    (existing : List MentionRef) : Text :=
  let label := mentionLabel charset displayName ss58
  let clash := existing.any (fun m => decide (m.display = label) && decide (m.ss58 ≠ ss58))
  if clash then label ++ units " (" ++ truncateSs58 ss58 ++ units ")" else label

/-! ## Serialising -/

def isNameCont (charset : Charset) (c : UInt16) : Bool :=
  if c < 0x80 then
    (decide (0x30 ≤ c) && decide (c ≤ 0x39)) || (decide (0x41 ≤ c) && decide (c ≤ 0x5a)) ||
      (decide (0x61 ≤ c) && decide (c ≤ 0x7a)) || c == 0x5f
  else charset.isLetterOrNumber c

def byDisplay (mentions : List MentionRef) : List MentionRef :=
  mentions.foldl (fun kept m =>
    if m.display.isEmpty || kept.any (fun k => decide (k.display = m.display)) then kept
    else kept ++ [m]) []

def displays (mentions : List MentionRef) : List MentionRef :=
  (byDisplay mentions).insertionSort (fun a b => b.display.length ≤ a.display.length)

def standsAt (charset : Charset) (rest display : Text) : Bool :=
  display.isPrefixOf rest && !(rest[display.length]?).any (isNameCont charset)

/-- The pass over the text.  The number counts what is left of a display that has
been expanded. -/
def expand (charset : Charset) (displays : List MentionRef) : ℕ → Text → Text
  | _, [] => []
  | skip + 1, _ :: rest => expand charset displays skip rest
  | 0, c :: rest =>
      match if c = atSign then displays.find? (fun m => standsAt charset rest m.display)
        else none with
      | some m => atSign :: (m.ss58 ++ expand charset displays m.display.length rest)
      | none => c :: expand charset displays 0 rest

def serializeMentions (charset : Charset) (text : Text) (mentions : List MentionRef) : Text :=
  if mentions.isEmpty || !text.contains atSign then text
  else if (displays mentions).isEmpty then text
  else expand charset (displays mentions) 0 text

/-! ## Parsing -/

structure ParsedMention where
  index : ℕ
  length : ℕ
  ss58 : Text
  raw : Text
deriving DecidableEq

def validSs58Prefix (charset : Charset) (run : Text) : Option (Text × ℕ) :=
  (List.range' ss58MinLen (min run.length ss58MaxLen + 1 - ss58MinLen)).reverse.findSome?
    (fun len => (normalizeSs58 charset (run.take len)).map (fun ss58 => (ss58, len)))

def mentionAt (charset : Charset) (index : ℕ) (run : Text) : Option ParsedMention :=
  if ss58MinLen ≤ run.length then
    (validSs58Prefix charset run).map (fun hit =>
      ⟨index, 1 + hit.2, hit.1, atSign :: run.take hit.2⟩)
  else none

/-- From a position on.  A run holds no `@`, so no candidate starts inside one. -/
def parseFrom (charset : Charset) : ℕ → Text → List ParsedMention
  | _, [] => []
  | index, c :: rest =>
      (if c = atSign then mentionAt charset index (rest.takeWhile isBase58) else none).toList ++
        parseFrom charset (index + 1) rest

def parseMentionBody (charset : Charset) (body : Text) : List ParsedMention :=
  parseFrom charset 0 body

end CognoChain.Client
