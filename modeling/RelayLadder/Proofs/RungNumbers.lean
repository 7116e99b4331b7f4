/-
  Whether the rungs of a routine's content can be told apart by their numbers.

  A rung that states no number goes by its position, and nothing keeps another rung from stating
  this very number.

  * `findsItsRungs_iff`: a routine finds each of its rungs by number exactly if the numbers are
    distinct;
  * `perm_numbers`: the numbers of the rungs read are those stated and the positions of the others;
  * `rungs_apart_iff`: so they are distinct exactly if the stated ones are and none of them is the
    position of a rung that states none.
-/
import RelayLadder.Proofs.Refusals
import RelayLadder.Proofs.SearchMatches

namespace RelayLadder

/-! ## Finding rungs by number -/

/-- The number of each rung leads back to this rung, and to its place. -/
def Routine.FindsItsRungs (r : Routine) : Prop :=
  ∀ k x, r.rungs[k]? = some x →
    r.position (.integer x.number) = .ok k ∧ r.rung (.integer x.number) = .ok x

theorem Routine.findsItsRungs_iff {r : Routine} : r.FindsItsRungs ↔ r.numbers.Nodup := by
  constructor
  · intro h
    refine List.pairwise_map.2 (List.pairwise_iff_getElem.2 fun j k hj hk hjk heq => ?_)
    -- two rungs with one number would stand at one place
    have hj' := (h j _ (List.getElem?_eq_getElem hj)).1
    have hk' := (h k _ (List.getElem?_eq_getElem hk)).1
    rw [heq, hk'] at hj'
    cases hj'
    exact Nat.lt_irrefl _ hjk
  · intro hnodup k x hx
    exact ⟨position_of_getElem? hnodup hx,
      (rung_eq_ok_iff hnodup).2 ⟨List.mem_of_getElem? hx, rfl⟩⟩

namespace L5X

open Xml

/-! ## The numbers of the rungs read -/

/-- The numbers that rungs state for themselves. -/
def statedValues (content : Node) : List Nat := (numbersIn content).map numeralValue

/-- The positions of the rungs that state no number. -/
def unstatedPositions (content : Node) : List Nat :=
  ((content.childrenNamed "Rung").zipIdx.filter fun p => (statedNumber? p.1).isNone).map Prod.snd

/-- **Each rung goes by the number that it states, or by its position.** -/
theorem perm_numbers (content : Node) :
    ((rungsOf content).map Rung.number).Perm
      (statedValues content ++ unstatedPositions content) := by
  have hnumbers : (rungsOf content).map Rung.number =
      (content.childrenNamed "Rung").zipIdx.map fun p => numberOf p.1 p.2 := by
    rw [rungsOf, List.map_map]
    rfl
  rw [hnumbers, statedValues, unstatedPositions, numbersIn]
  generalize content.childrenNamed "Rung" = rungs
  -- the positions may start anywhere
  generalize 0 = start
  induction rungs generalizing start with
  | nil => exact List.Perm.nil
  | cons rung rungs ih =>
    rw [List.zipIdx_cons, List.map_cons]
    cases hstated : statedNumber? rung with
    | some s =>
      have hnumber : numberOf rung start = numeralValue s := by simp [numberOf, hstated]
      rw [hnumber, List.filterMap_cons_some hstated, List.map_cons, List.cons_append,
        List.filter_cons_of_neg (by simp [hstated])]
      exact (ih (start + 1)).cons _
    | none =>
      have hnumber : numberOf rung start = start := by simp [numberOf, hstated]
      rw [hnumber, List.filterMap_cons_none hstated,
        List.filter_cons_of_pos (by simp [hstated]), List.map_cons]
      exact ((ih (start + 1)).cons _).trans List.perm_middle.symm

theorem nodup_unstatedPositions (content : Node) : (unstatedPositions content).Nodup := by
  have hsub : (unstatedPositions content).Sublist
      ((content.childrenNamed "Rung").zipIdx.map Prod.snd) := List.filter_sublist.map _
  rw [List.zipIdx_map_snd] at hsub
  exact hsub.nodup List.nodup_range'

theorem nodup_numbers_iff (content : Node) :
    ((rungsOf content).map Rung.number).Nodup ↔
      (statedValues content).Nodup ∧ ∀ n ∈ unstatedPositions content, n ∉ statedValues content := by
  rw [(perm_numbers content).nodup_iff, List.nodup_append']
  constructor
  · rintro ⟨hstated, -, hapart⟩
    exact ⟨hstated, fun n hn hn' => hapart hn' hn⟩
  · rintro ⟨hstated, hapart⟩
    exact ⟨hstated, nodup_unstatedPositions content, fun n hn hn' => hapart n hn' hn⟩

theorem eq_rungsOf_of_readRungs {content : Node} {rungs : List Rung}
    (h : readRungs content = .ok rungs) : rungs = rungsOf content := by
  rw [readRungs_eq] at h
  cases hfault : (numbersIn content).findSome? numeralFault? with
  | none =>
    rw [hfault] at h
    cases h
    rfl
  | some e =>
    rw [hfault] at h
    cases h

/-- **The rungs read from a content can be told apart by their numbers**, exactly if the numbers
    that they state are distinct and none of these is the position of a rung that states none. -/
theorem rungs_apart_iff {content : Node} {rungs : List Rung} (h : readRungs content = .ok rungs)
    (name : String) :
    let r : Routine := ⟨name, rungs⟩
    (r.numbers.Nodup ↔
      (statedValues content).Nodup ∧
        ∀ n ∈ unstatedPositions content, n ∉ statedValues content) ∧
    (r.FindsItsRungs ↔ r.numbers.Nodup) := by
  intro r
  obtain rfl := eq_rungsOf_of_readRungs h
  exact ⟨nodup_numbers_iff content, Routine.findsItsRungs_iff⟩

/-- The middle rung states no number, and its position is not stated by the others. -/
theorem rungs_apart_mixed :
    let content : Node := .node "RLLContent" [] none
      [.node "Rung" [("Number", "5")] none [], .node "Rung" [("Number", "x")] none [],
        .node "Rung" [("Number", "0")] none []]
    let r : Routine := ⟨"Main/Logic", rungsOf content⟩
    readRungs content = .ok r.rungs ∧ r.numbers = [5, 1, 0] ∧
    (r.numbers.Nodup ↔
      (statedValues content).Nodup ∧
        ∀ n ∈ unstatedPositions content, n ∉ statedValues content) ∧
    (r.FindsItsRungs ↔ r.numbers.Nodup) := by
  intro content r
  have hread : readRungs content = .ok r.rungs := by
    rw [readRungs_eq, findSome?_numeralFault?_eq_none_iff.2 (by decide)]
    rfl
  exact ⟨hread, by decide +kernel, rungs_apart_iff hread "Main/Logic"⟩

/-- The second rung states no number and goes by its position, which the first one states.  The
    number of the second rung then stands for the first one. -/
theorem exists_rungs_of_one_number :
    ∃ (content : Node) (rungs : List Rung) (first second : Rung),
      (statedValues content).Nodup ∧ readRungs content = .ok rungs ∧
      rungs = [first, second] ∧ first.number = second.number ∧ first ≠ second ∧
      ∀ name, (⟨name, rungs⟩ : Routine).rung (.integer second.number) = .ok first := by
  let rung (attributes : List (String × String)) (text : String) : Node :=
    .node "Rung" attributes none [.node "Text" [] (some text) []]
  let content : Node :=
    .node "RLLContent" [] none [rung [("Number", "1")] "XIC(First)", rung [] "XIC(Second)"]
  have hread : readRungs content = .ok (rungsOf content) := by
    rw [readRungs_eq, findSome?_numeralFault?_eq_none_iff.2 (by decide)]
    rfl
  exact ⟨content, rungsOf content, .ofText 1 "XIC(First)", .ofText 1 "XIC(Second)",
    by decide +kernel, hread, by decide +kernel, rfl, by decide +kernel, fun name => rfl⟩

end L5X

end RelayLadder
