/-
  The locations of a series are the addresses of its instructions.

  An address is a way into nested legs with a position in the series that it leads to.

  * `instructionAt? es path position`: the instruction at an address, found by following the way;
  * `Leads.follow_eq`, `exists_leads_of_follow`: following a way leads where `Leads` says, which is
    one place only (`Leads.unique`);
  * `instructionAt?_eq_some_iff`: so an address has an instruction if and only if a number stands
    for it there, and no two numbers stand for one address (`Stands.unique_of_address`);
  * `walk_covers_addresses`: a walk gives every address that has an instruction, each once, with the
    instruction and in reading order, and numbers are looked up in the walk.
-/
import Mathlib.Logic.ExistsUnique
import RelayLadder.Proofs.Places

namespace RelayLadder.Series

/-- The instruction at a position of the series that a way leads to. -/
def instructionAt? (es : Series) (path : LegPath) (position : Nat) : Option Instruction :=
  match (follow path es).bind (·[position]?) with
  | some (.instr i) => some i
  | _ => none

/-! ## Ways and what they lead to -/

/-- What has a position in a list stands between the part in front of it and the part behind. -/
theorem exists_eq_append_cons {α : Type} {xs : List α} {k : Nat} {x : α} (h : xs[k]? = some x) :
    ∃ left right, xs = left ++ x :: right ∧ left.length = k := by
  obtain ⟨hk, rfl⟩ := List.getElem?_eq_some_iff.1 h
  refine ⟨xs.take k, xs.drop (k + 1), ?_, List.length_take_of_le (Nat.le_of_lt hk)⟩
  rw [List.getElem_cons_drop, List.take_append_drop]

theorem Leads.follow_eq {path : LegPath} {es inner : Series} {before after : List Instruction}
    (h : Leads path es before inner after) : follow path es = some inner := by
  induction h with
  | here => rfl
  | into _ ih => simp [follow, ih]

/-- What a way can be followed to, it leads to. -/
theorem exists_leads_of_follow {path : LegPath} {es inner : Series}
    (h : follow path es = some inner) : ∃ before after, Leads path es before inner after := by
  induction path generalizing es with
  | nil =>
    cases h
    exact ⟨[], [], .here⟩
  | cons step path ih =>
    obtain ⟨position, number⟩ := step
    rw [follow] at h
    split at h
    · rename_i legs hbranch
      obtain ⟨leg, hleg, hinner⟩ := Option.bind_eq_some_iff.1 h
      obtain ⟨before, after, hlead⟩ := ih hinner
      obtain ⟨left, right, rfl, rfl⟩ := exists_eq_append_cons hbranch
      obtain ⟨above, below, rfl, rfl⟩ := exists_eq_append_cons hleg
      exact ⟨_, _, .into hlead⟩
    · cases h

/-- What a way that goes on into a leg leads to. -/
theorem Leads.exists_into {position number : Nat} {path : LegPath} {es inner : Series}
    {before after : List Instruction}
    (h : Leads ((position, number) :: path) es before inner after) :
    ∃ left above leg below right front back,
      es = left ++ .branch (above ++ leg :: below) :: right ∧
      left.length = position ∧ above.length = number ∧ Leads path leg front inner back ∧
      before = instructions left ++ Legs.instructions above ++ front := by
  cases h with
  | into h => exact ⟨_, _, _, _, _, _, _, rfl, rfl, rfl, h, rfl⟩

/-- A way leads to one place only, behind the same instructions. -/
theorem Leads.unique {path : LegPath} {es inner inner' : Series}
    {before before' after after' : List Instruction} (h : Leads path es before inner after)
    (h' : Leads path es before' inner' after') : before = before' ∧ inner = inner' := by
  induction h generalizing before' inner' after' with
  | here =>
    cases h'
    exact ⟨rfl, rfl⟩
  | into _ ih =>
    obtain ⟨left, above, leg, below, right, front, back, hes, hleft, habove, hlead, rfl⟩ :=
      h'.exists_into
    -- the branch has this position on both sides, and the leg has this number
    obtain ⟨rfl, htail⟩ := List.append_inj hes hleft.symm
    obtain ⟨hbranch, rfl⟩ := List.cons.inj htail
    obtain ⟨rfl, hlegs⟩ := List.append_inj (Element.branch.inj hbranch) habove.symm
    obtain ⟨rfl, rfl⟩ := List.cons.inj hlegs
    obtain ⟨rfl, rfl⟩ := ih hlead
    exact ⟨rfl, rfl⟩

/-! ## Addresses and numbers -/

theorem instructionAt?_eq_some {es : Series} {path : LegPath} {position : Nat} {i : Instruction} :
    es.instructionAt? path position = some i ↔
      ∃ inner, follow path es = some inner ∧ inner[position]? = some (.instr i) := by
  rw [instructionAt?, ← Option.bind_eq_some_iff]
  split <;> simp_all

/-- **An address has an instruction if and only if a number stands for it there.** -/
theorem instructionAt?_eq_some_iff {es : Series} {path : LegPath} {position : Nat}
    {i : Instruction} :
    es.instructionAt? path position = some i ↔ ∃ k, Stands es k ⟨path, position, i⟩ := by
  rw [instructionAt?_eq_some]
  constructor
  · rintro ⟨inner, hfollow, hinner⟩
    obtain ⟨before, after, hlead⟩ := exists_leads_of_follow hfollow
    obtain ⟨left, right, rfl, hleft⟩ := exists_eq_append_cons hinner
    exact ⟨_, before, left, right, after, hlead, hleft, rfl⟩
  · rintro ⟨k, before, left, right, after, hlead, rfl, -⟩
    refine ⟨_, hlead.follow_eq, ?_⟩
    rw [List.getElem?_append_right (Nat.le_refl _), Nat.sub_self, List.getElem?_cons_zero]

/-- No two numbers stand for one address. -/
theorem Stands.unique_of_address {es : Series} {j k : Nat} {a b : Place} (ha : Stands es j a)
    (hb : Stands es k b) (hpath : a.path = b.path) (hposition : a.position = b.position) :
    j = k := by
  obtain ⟨before, left, right, after, hlead, hleft, rfl⟩ := ha
  obtain ⟨before', left', right', after', hlead', hleft', rfl⟩ := hb
  rw [hpath] at hlead
  obtain ⟨rfl, hinner⟩ := hlead.unique hlead'
  have hlength : left.length = left'.length := by rw [hleft, hleft', hposition]
  obtain ⟨rfl, -⟩ := List.append_inj hinner hlength
  rfl

/-! ## Locations -/

/-- The locations of a walk are what its numbers stand for. -/
theorem mem_walk_iff_stands {es : Series} {l : Location} :
    l ∈ walk es ↔ Stands es l.index l.toPlace := by
  rw [List.mem_iff_getElem?]
  constructor
  · rintro ⟨k, hk⟩
    have hlocate : locate es k = some l := locate_eq_some_iff_getElem?.2 ⟨k, rfl, hk⟩
    exact (locate_eq_some_iff.1 hlocate).2
  · intro h
    obtain ⟨k, -, hk⟩ := locate_eq_some_iff_getElem?.1 (locate_eq_some_iff.2 ⟨rfl, h⟩)
    exact ⟨k, hk⟩

/-- An address with an instruction is that of exactly one location. -/
theorem existsUnique_location {es : Series} {path : LegPath} {position : Nat} {i : Instruction}
    (h : es.instructionAt? path position = some i) :
    ∃! l, l ∈ walk es ∧ l.path = path ∧ l.position = position := by
  obtain ⟨k, hk⟩ := instructionAt?_eq_some_iff.1 h
  refine ⟨⟨⟨path, position, i⟩, k⟩, ⟨mem_walk_iff_stands.2 hk, rfl, rfl⟩, ?_⟩
  rintro ⟨place, index⟩ ⟨hl, hpath, hposition⟩
  have hstands : Stands es index place := mem_walk_iff_stands.1 hl
  obtain rfl : index = k := hstands.unique_of_address hk hpath hposition
  rw [hstands.unique hk]

/-- **A walk gives the addresses of all instructions**: it numbers them from 0 in reading order,
    each location leads to its instruction, and each address with an instruction is that of exactly
    one location.  Looking up a number finds the location that the walk has at this position, and
    none for other numbers. -/
theorem walk_covers_addresses (es : Series) :
    (walk es).map Location.index = List.range (count es) ∧
    (walk es).map (·.instruction) = instructions es ∧
    (∀ l ∈ walk es, es.instructionAt? l.path l.position = some l.instruction) ∧
    (∀ path position i, es.instructionAt? path position = some i →
      ∃! l, l ∈ walk es ∧ l.path = path ∧ l.position = position) ∧
    ∀ index : Int,
      (∀ l, locate es index = some l ↔ ∃ k : Nat, index = k ∧ (walk es)[k]? = some l) ∧
      (locate es index = none ↔ ¬ (0 ≤ index ∧ index < count es)) := by
  refine ⟨map_index_walk es, map_instruction_walk es, fun l hl => ?_,
    fun path position i h => existsUnique_location h,
    fun index => ⟨fun l => locate_eq_some_iff_getElem?, locate_eq_none_iff⟩⟩
  exact instructionAt?_eq_some_iff.2 ⟨l.index, mem_walk_iff_stands.1 hl⟩

end RelayLadder.Series
