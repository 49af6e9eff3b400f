import CognoChain.Model.Observer

/-!
# Cutting a set of roles to its bounds

The observer and the roles pallet both cut an account's roles in two passes:
dRep and committee roles fill a small reserve, then pools fill what is left of
the cap.  What a pass takes is the front of its class, which gives both cuts a
closed form; after the first cut the second finds nothing more to drop.
-/

namespace CognoChain

open Substrate CognoChain.Runtime

def isSpo (role : RoleTuple) : Bool := decide (role.1 = 0)

def ofPass (spoPass : Bool) (roles : List RoleTuple) : List RoleTuple :=
  roles.filter (fun role => isSpo role == spoPass)

def passRoom (cap : ℕ) (spoPass : Bool) : ℕ :=
  if spoPass then cap else min nonSpoReserve cap

def observedRole (role : RoleTuple) : Option ObservedRole :=
  match role.1 with
  | 0 => some ⟨.spo, role.2.1, role.2.2⟩
  | 1 => some ⟨.dRep, role.2.1, role.2.2⟩
  | 2 => some ⟨.committee, role.2.1, role.2.2⟩
  | _ => none

variable {role : RoleTuple} {roles : List RoleTuple} {spoPass : Bool}

theorem mem_ofPass :
    role ∈ ofPass spoPass roles ↔ role ∈ roles ∧ isSpo role = spoPass := by
  simp [ofPass]

theorem ofPass_cons_of_eq (hclass : isSpo role = spoPass) :
    ofPass spoPass (role :: roles) = role :: ofPass spoPass roles :=
  List.filter_cons_of_pos (by simpa using hclass)

theorem ofPass_cons_of_ne (hclass : isSpo role ≠ spoPass) :
    ofPass spoPass (role :: roles) = ofPass spoPass roles :=
  List.filter_cons_of_neg (by simpa using hclass)

theorem lt_passRoom_iff {cap taken : ℕ} :
    taken < passRoom cap spoPass ↔
      ¬ (!spoPass && decide (nonSpoReserve ≤ taken)) = true ∧ taken < cap := by
  cases spoPass with
  | true => simp [passRoom]
  | false => simp [passRoom]

theorem take_cons_of_room {A : Type} {taken rest : List A} {a : A} {room : ℕ}
    (hroom : taken.length < room) :
    taken ++ [a] ++ rest.take (room - (taken ++ [a]).length) =
      taken ++ (a :: rest).take (room - taken.length) := by
  have hleft : room - taken.length = room - (taken ++ [a]).length + 1 := by
    rw [List.length_append, List.length_singleton]
    omega
  rw [hleft, List.take_succ_cons, List.append_assoc, List.singleton_append]

/-! ## The observer's cut -/

section Observer

variable {cfg : Config} {spoPass : Bool}

theorem boundedPass_eq (out set : List RoleTuple) :
    boundedPass cfg spoPass out set =
      out ++ (ofPass spoPass set).take (passRoom cfg.maxRolesPerAccount spoPass - out.length) := by
  induction set generalizing out with
  | nil => simp [boundedPass, ofPass]
  | cons role set ih =>
    unfold boundedPass
    by_cases hclass : isSpo role = spoPass
    · rw [if_neg (by simpa [isSpo] using hclass), ofPass_cons_of_eq hclass]
      by_cases hroom : out.length < passRoom cfg.maxRolesPerAccount spoPass
      · obtain ⟨hreserve, hcap⟩ := lt_passRoom_iff.mp hroom
        rw [if_neg hreserve, if_pos hcap, ih, take_cons_of_room hroom]
      · rw [Nat.sub_eq_zero_of_le (Nat.not_lt.mp hroom), List.take_zero, List.append_nil]
        split_ifs with hreserve hcap
        · rfl
        · exact absurd (lt_passRoom_iff.mpr ⟨hreserve, hcap⟩) hroom
        · rfl
    · rw [if_pos (by simpa [isSpo] using hclass), ih, ofPass_cons_of_ne hclass]

theorem boundedRoles_ne_nil {set : List RoleTuple} (hroom : 0 < cfg.maxRolesPerAccount)
    (hset : set ≠ []) : boundedRoles cfg set ≠ [] := by
  unfold boundedRoles
  split_ifs
  · exact hset
  · rw [boundedPass_eq, boundedPass_eq, List.nil_append]
    intro hnil
    obtain ⟨hother, hspo⟩ := List.append_eq_nil_iff.mp hnil
    obtain ⟨role, rest, rfl⟩ := List.exists_cons_of_ne_nil hset
    have hreserve : passRoom cfg.maxRolesPerAccount false ≠ 0 := by
      simp [passRoom, nonSpoReserve]
      omega
    rw [hother] at hspo
    cases hclass : isSpo role with
    | false =>
      rw [ofPass_cons_of_eq hclass] at hother
      simp [hreserve] at hother
    | true =>
      rw [ofPass_cons_of_eq hclass] at hspo
      simp [passRoom, Nat.pos_iff_ne_zero.mp hroom] at hspo

theorem boundedRoles_eq_of_lt {set : List RoleTuple} (hlong : cfg.maxRolesPerAccount < set.length)
    (hcap : nonSpoReserve ≤ cfg.maxRolesPerAccount) :
    boundedRoles cfg set =
      (ofPass false set).take nonSpoReserve ++ (ofPass true set).take
        (cfg.maxRolesPerAccount - ((ofPass false set).take nonSpoReserve).length) := by
  unfold boundedRoles
  rw [if_neg (Nat.not_le.mpr hlong), boundedPass_eq, boundedPass_eq]
  simp [passRoom, hcap]

end Observer

/-! ## The roles pallet's cut -/

def ObservedRole.tuple (role : ObservedRole) : RoleTuple := (role.kind.index, role.id, role.weight)

theorem exists_observedRole (hkind : role.1 < 3) :
    ∃ badge, observedRole role = some badge ∧ badge.tuple = role := by
  obtain ⟨kindIx, id, weight⟩ := role
  match kindIx with
  | 0 => exact ⟨⟨.spo, id, weight⟩, rfl, rfl⟩
  | 1 => exact ⟨⟨.dRep, id, weight⟩, rfl, rfl⟩
  | 2 => exact ⟨⟨.committee, id, weight⟩, rfl, rfl⟩
  | kindIx + 3 =>
    simp only at hkind
    omega

section Pallet

variable {passSpo : Bool} {bounded : List ObservedRole} {role : RoleTuple}
  {roles : List RoleTuple}

theorem boundPass_cons_of_ne (hclass : isSpo role ≠ passSpo) :
    boundPass passSpo bounded (role :: roles) = boundPass passSpo bounded roles := by
  obtain ⟨kindIx, id, weight⟩ := role
  match kindIx, passSpo with
  | 0, true => exact absurd rfl hclass
  | 0, false => rfl
  | 1, false | 2, false | _ + 3, false => exact absurd rfl hclass
  | 1, true | 2, true | _ + 3, true => rfl

theorem boundPass_cons_of_none (hnone : observedRole role = none) :
    boundPass passSpo bounded (role :: roles) = boundPass passSpo bounded roles := by
  obtain ⟨kindIx, id, weight⟩ := role
  match kindIx with
  | 0 | 1 | 2 => cases hnone
  | _ + 3 => rfl

theorem boundPass_cons_of_some {badge : ObservedRole} (hclass : isSpo role = passSpo)
    (hbadge : observedRole role = some badge) :
    boundPass passSpo bounded (role :: roles) =
      if !passSpo && nonSpoReserve ≤ bounded.length then boundPass passSpo bounded roles
      else if bounded.length < maxObservedRolesPerAccount then
        boundPass passSpo (bounded ++ [badge]) roles
      else bounded := by
  obtain ⟨kindIx, id, weight⟩ := role
  match kindIx with
  | 0 | 1 | 2 =>
    rw [← hclass, ← Option.some.inj hbadge]
    rfl
  | _ + 3 => cases hbadge

theorem boundPass_eq (bounded : List ObservedRole) (roles : List RoleTuple) :
    boundPass passSpo bounded roles =
      bounded ++ ((ofPass passSpo roles).filterMap observedRole).take
        (passRoom maxObservedRolesPerAccount passSpo - bounded.length) := by
  induction roles generalizing bounded with
  | nil => simp [boundPass, ofPass]
  | cons role roles ih =>
    by_cases hclass : isSpo role = passSpo
    · rw [ofPass_cons_of_eq hclass]
      cases hbadge : observedRole role with
      | none => rw [boundPass_cons_of_none hbadge, ih, List.filterMap_cons_none hbadge]
      | some badge =>
        rw [boundPass_cons_of_some hclass hbadge, List.filterMap_cons_some hbadge]
        by_cases hroom : bounded.length < passRoom maxObservedRolesPerAccount passSpo
        · obtain ⟨hreserve, hcap⟩ := lt_passRoom_iff.mp hroom
          rw [if_neg hreserve, if_pos hcap, ih, take_cons_of_room hroom]
        · have hfull : passRoom maxObservedRolesPerAccount passSpo - bounded.length = 0 :=
            Nat.sub_eq_zero_of_le (Nat.not_lt.mp hroom)
          rw [ih, hfull, List.take_zero, List.take_zero, List.append_nil]
          split_ifs with hreserve hcap
          · rfl
          · exact absurd (lt_passRoom_iff.mpr ⟨hreserve, hcap⟩) hroom
          · rfl
    · rw [boundPass_cons_of_ne hclass, ih, ofPass_cons_of_ne hclass]

theorem boundObservedRoles_eq (roles : List RoleTuple) :
    boundObservedRoles roles =
      ((ofPass false roles).filterMap observedRole).take nonSpoReserve ++
        ((ofPass true roles).filterMap observedRole).take (maxObservedRolesPerAccount -
          (((ofPass false roles).filterMap observedRole).take nonSpoReserve).length) := by
  unfold boundObservedRoles
  rw [boundPass_eq, boundPass_eq]
  rfl

theorem boundObservedRoles_ne_nil (hmem : role ∈ roles) (hkind : role.1 < 3) :
    boundObservedRoles roles ≠ [] := by
  obtain ⟨badge, hbadge, -⟩ := exists_observedRole hkind
  have hstored : badge ∈ (ofPass (isSpo role) roles).filterMap observedRole :=
    List.mem_filterMap.mpr ⟨role, mem_ofPass.mpr ⟨hmem, rfl⟩, hbadge⟩
  rw [boundObservedRoles_eq]
  intro hnil
  obtain ⟨hother, hspo⟩ := List.append_eq_nil_iff.mp hnil
  rw [hother] at hspo
  cases hclass : isSpo role with
  | false =>
    rw [hclass] at hstored
    rw [List.take_eq_nil_iff.mp hother |>.resolve_left (by simp [nonSpoReserve])] at hstored
    cases hstored
  | true =>
    rw [hclass] at hstored
    rw [List.take_eq_nil_iff.mp hspo
      |>.resolve_left (by simp [maxObservedRolesPerAccount])] at hstored
    cases hstored

end Pallet

/-! ## Both cuts together -/

theorem ObservedRole.tuple_injective : Function.Injective ObservedRole.tuple := by
  rintro ⟨kind, id, weight⟩ ⟨kind', id', weight'⟩ h
  obtain ⟨hkind, hid, hweight⟩ : kind.index = kind'.index ∧ id = id' ∧ weight = weight' := by
    simpa [ObservedRole.tuple] using h
  have hsame : kind = kind' := StorageKey.enc_injective hkind
  rw [hsame, hid, hweight]

section Cuts

variable {cfg : Config} {roles : List RoleTuple}

theorem map_tuple_filterMap (hkind : ∀ role ∈ roles, role.1 < 3) :
    (roles.filterMap observedRole).map ObservedRole.tuple = roles := by
  induction roles with
  | nil => rfl
  | cons role roles ih =>
    obtain ⟨badge, hbadge, htuple⟩ := exists_observedRole (hkind role List.mem_cons_self)
    rw [List.filterMap_cons_some hbadge, List.map_cons, htuple,
      ih (fun role hrole => hkind role (List.mem_cons_of_mem _ hrole))]

theorem map_tuple_boundObservedRoles (hkind : ∀ role ∈ roles, role.1 < 3) :
    (boundObservedRoles roles).map ObservedRole.tuple =
      (ofPass false roles).take nonSpoReserve ++ (ofPass true roles).take
        (maxObservedRolesPerAccount - ((ofPass false roles).take nonSpoReserve).length) := by
  have hclass : ∀ spoPass, ((ofPass spoPass roles).filterMap observedRole).map
      ObservedRole.tuple = ofPass spoPass roles := fun spoPass =>
    map_tuple_filterMap (fun role hrole => hkind role (mem_ofPass.mp hrole).1)
  have hlength : ((ofPass false roles).filterMap observedRole).length =
      (ofPass false roles).length := by
    rw [← List.length_map ObservedRole.tuple, hclass]
  rw [boundObservedRoles_eq, List.map_append, List.map_take, List.map_take, hclass, hclass,
    List.length_take, List.length_take, hlength]

theorem ofPass_append (spoPass : Bool) (roles roles' : List RoleTuple) :
    ofPass spoPass (roles ++ roles') = ofPass spoPass roles ++ ofPass spoPass roles' :=
  List.filter_append ..

theorem ofPass_take_ofPass (spoPass spoPass' : Bool) (n : ℕ) :
    ofPass spoPass ((ofPass spoPass' roles).take n) =
      if spoPass = spoPass' then (ofPass spoPass' roles).take n else [] := by
  have hmem : ∀ role ∈ (ofPass spoPass' roles).take n, isSpo role = spoPass' :=
    fun role hrole => (mem_ofPass.mp (List.mem_of_mem_take hrole)).2
  split_ifs with hsame
  · exact List.filter_eq_self.mpr (fun role hrole => by simp [hmem role hrole, hsame])
  · refine List.filter_eq_nil_iff.mpr (fun role hrole => ?_)
    simpa [hmem role hrole] using fun heq => hsame heq.symm

theorem mem_boundedRoles (hmem : role ∈ boundedRoles cfg roles) :
    role ∈ roles := by
  unfold boundedRoles at hmem
  split_ifs at hmem
  · exact hmem
  · rw [boundedPass_eq, boundedPass_eq, List.nil_append] at hmem
    rcases List.mem_append.mp hmem with hmem | hmem
    · exact (mem_ofPass.mp (List.mem_of_mem_take hmem)).1
    · exact (mem_ofPass.mp (List.mem_of_mem_take hmem)).1

theorem ofPass_boundedRoles (hlong : cfg.maxRolesPerAccount < roles.length)
    (hcap : nonSpoReserve ≤ cfg.maxRolesPerAccount) (spoPass : Bool) :
    ofPass spoPass (boundedRoles cfg roles) =
      (ofPass spoPass roles).take
        (if spoPass then
          cfg.maxRolesPerAccount - ((ofPass false roles).take nonSpoReserve).length
        else nonSpoReserve) := by
  rw [boundedRoles_eq_of_lt hlong hcap, ofPass_append, ofPass_take_ofPass, ofPass_take_ofPass]
  cases spoPass with
  | false => simp
  | true => simp

/-- Bounding a set that the observer has already bounded changes nothing, and
the badges of a set of roles are its first four roles of other kinds followed
by its first pools up to the cap. -/
theorem roleBounding_composes (cfg : Config) (hcap : cfg.maxRolesPerAccount = 32)
    (roles : List RoleTuple) (hkind : ∀ role ∈ roles, role.1 < 3) :
    boundObservedRoles (boundedRoles cfg roles) = boundObservedRoles roles ∧
      (boundObservedRoles roles).map ObservedRole.tuple =
        (ofPass false roles).take 4 ++
          (ofPass true roles).take (32 - min 4 (ofPass false roles).length) ∧
      ofPass false ((boundObservedRoles roles).map ObservedRole.tuple) =
        (ofPass false roles).take 4 ∧
      (ofPass false ((boundObservedRoles roles).map ObservedRole.tuple)).length ≤ 4 := by
  have hbadges : (boundObservedRoles roles).map ObservedRole.tuple =
      (ofPass false roles).take 4 ++
        (ofPass true roles).take (32 - min 4 (ofPass false roles).length) := by
    rw [map_tuple_boundObservedRoles hkind, List.length_take]
    rfl
  have hreserve : ofPass false ((boundObservedRoles roles).map ObservedRole.tuple) =
      (ofPass false roles).take 4 := by
    rw [hbadges, ofPass_append, ofPass_take_ofPass, ofPass_take_ofPass]
    simp
  refine ⟨?_, hbadges, hreserve, ?_⟩
  · by_cases hlong : cfg.maxRolesPerAccount < roles.length
    · apply List.map_injective_iff.mpr ObservedRole.tuple_injective
      have hle : nonSpoReserve ≤ cfg.maxRolesPerAccount := by simp [nonSpoReserve, hcap]
      have hpasses := ofPass_boundedRoles hlong hle
      rw [map_tuple_boundObservedRoles hkind,
        map_tuple_boundObservedRoles (fun role hrole => hkind role (mem_boundedRoles hrole)),
        hpasses false, hpasses true, hcap]
      simp [List.take_take, maxObservedRolesPerAccount]
    · rw [boundedRoles, if_pos (Nat.not_lt.mp hlong)]
  · rw [hreserve]
    exact List.length_take_le _ _

theorem roleBounding_composes_fortyPools :
    ((List.replicate 40 (0, ⟨7⟩, 5) ++ [(1, ⟨9⟩, 3)] : List RoleTuple).all
        (fun role => decide (role.1 < 3))) = true ∧
      boundObservedRoles (boundedRoles Config.toy
          (List.replicate 40 (0, ⟨7⟩, 5) ++ [(1, ⟨9⟩, 3)])) =
        boundObservedRoles (List.replicate 40 (0, ⟨7⟩, 5) ++ [(1, ⟨9⟩, 3)]) ∧
      (boundObservedRoles (List.replicate 40 (0, ⟨7⟩, 5) ++ [(1, ⟨9⟩, 3)])).head? =
        some ⟨.dRep, ⟨9⟩, 3⟩ :=
  ⟨by decide +kernel,
    (roleBounding_composes Config.toy rfl _ (by decide +kernel)).1, by decide +kernel⟩

end Cuts

end CognoChain
