/-
  Routines as maps from numbers to rungs that keep the order of insertion.

  Nothing in a routine itself keeps two rungs from having the same number; each operation does.

  * `replace_present`, `remove_present`: where numbers are distinct, an operation on a number
    changes exactly the rung with this number;
  * `changesAt_of_exchange`: then all other numbers stand for the same rungs as before;
  * `nodup_perform`: an operation keeps the numbers distinct;
  * `isKeyed_run`: so after any run of operations, the routine is such a map.
-/
import Mathlib.Data.List.Nodup
import RelayLadder.Routine

namespace RelayLadder

/-- The value that is offered as a comment. -/
def FieldValue.ofComment : Option String → FieldValue
  | some s => .text s
  | none => .null

theorem FieldValue.isNumber_integer (n : Int) (k : Nat) :
    (FieldValue.integer n).isNumber k = decide (n = k) := by
  simp [FieldValue.isNumber, beq_eq_decide]

@[simp]
theorem FieldValue.isNumber_natural (n k : Nat) :
    (FieldValue.integer n).isNumber k = decide (n = k) := by
  rw [isNumber_integer]
  exact decide_eq_decide.2 Int.ofNat_inj

namespace Rung

theorem checkComment_ofComment (comment : Option String) :
    checkComment (.ofComment comment) = .ok comment := by
  cases comment <;> rfl

theorem ofFields_natural (n : Nat) (text : String) (comment : Option String) :
    ofFields (.integer n) text (.ofComment comment) = .ok (ofText n text comment) := by
  unfold ofFields
  rw [checkComment_ofComment]
  rfl

theorem ofFields_negative {n : Int} (h : n < 0) (text : String) (comment : Option String) :
    ofFields (.integer n) text (.ofComment comment) = .error .negativeNumber := by
  obtain ⟨k, rfl⟩ := Int.eq_negSucc_of_lt_zero h
  unfold ofFields
  rw [checkComment_ofComment]
  rfl

/-- Fields that are accepted have a natural number among them, and make the rung with it. -/
theorem ofFields_eq_ok {number comment : FieldValue} {text : String} {new : Rung}
    (h : ofFields number text comment = .ok new) :
    ∃ (n : Nat) (c : Option String), number = .integer n ∧ new = ofText n text c := by
  unfold ofFields at h
  rcases hc : checkComment comment with e | c
  · rw [hc] at h
    cases h
  · rw [hc] at h
    cases number with
    | integer n =>
      cases n with
      | ofNat n =>
        cases h
        exact ⟨n, c, rfl, rfl⟩
      | negSucc n => cases h
    | _ => cases h

end Rung

namespace Routine

/-! ## Finding rungs -/

/-- The rung that a number stands for, among some. -/
def findRung (rungs : List Rung) (n : Int) : Option Rung := rungs.find? fun x => n = x.number

theorem rung_eq (r : Routine) (n : Int) :
    r.rung (.integer n) =
      ((findRung r.rungs n).elim (.error (.noSuchKey (.integer n))) .ok) := by
  unfold rung findRung
  simp only [FieldValue.isNumber_integer]
  split <;> rename_i h <;> rw [h] <;> rfl

theorem position_absent {r : Routine} {n : Int} (h : ∀ k ∈ r.numbers, n ≠ k) :
    r.position (.integer n) = .error (.noSuchKey (.integer n)) := by
  have hnone : r.rungs.findIdx? (fun x => (FieldValue.integer n).isNumber x.number) = none := by
    refine List.findIdx?_eq_none_iff.2 fun x hx => ?_
    simpa [FieldValue.isNumber_integer] using h x.number (List.mem_map_of_mem hx)
  rw [position, hnone]

/-- Where numbers are distinct, one that is present is that of exactly one rung. -/
theorem position_present {r : Routine} (hnodup : r.numbers.Nodup) {n : Nat} (h : n ∈ r.numbers) :
    ∃ before old after, r.rungs = before ++ old :: after ∧ old.number = n ∧
      (∀ x ∈ before ++ after, x.number ≠ n) ∧ r.position (.integer n) = .ok before.length := by
  obtain ⟨old, hold, rfl⟩ := List.mem_map.1 h
  obtain ⟨before, after, hsplit⟩ := List.append_of_mem hold
  simp only [numbers, hsplit, List.map_append, List.map_cons, List.nodup_append, List.nodup_cons,
    List.mem_map, List.mem_cons] at hnodup
  obtain ⟨-, ⟨hafter, -⟩, hbefore⟩ := hnodup
  have hbefore' : ∀ x ∈ before, x.number ≠ old.number := fun x hx =>
    hbefore x.number ⟨x, hx, rfl⟩ old.number (.inl rfl)
  refine ⟨before, old, after, hsplit, rfl, fun x hx => ?_, ?_⟩
  · rcases List.mem_append.1 hx with hx | hx
    · exact hbefore' x hx
    · exact fun heq => hafter ⟨x, hx, heq⟩
  have hfirst : r.rungs.findIdx? (fun x => (FieldValue.integer old.number).isNumber x.number) =
      some before.length := by
    have hnone : before.findIdx? (fun x => (FieldValue.integer old.number).isNumber x.number) =
        none := by
      refine List.findIdx?_eq_none_iff.2 fun x hx => ?_
      simpa using (hbefore' x hx).symm
    rw [hsplit, List.findIdx?_append, hnone]
    simp [List.findIdx?_cons]
  rw [position, hfirst]

/-! ## Single operations -/

/-- A rung is added at the end, with the number that is given or else one past the highest.  A
    number that is taken is refused. -/
theorem add_eq (r : Routine) (text : String) (number comment : FieldValue) :
    r.add text number comment =
      if number ≠ .null ∧ r.numbers.any number.isNumber = true then
        .error (.duplicateRung r.name number)
      else
        (Rung.ofFields (if number = .null then .integer r.nextNumber else number) text comment).map
          fun rung => { r with rungs := r.rungs ++ [rung] } := by
  have hmap (fields : Except Error Rung) :
      (do return ({ r with rungs := r.rungs ++ [← fields] } : Routine)) =
        fields.map fun rung => { r with rungs := r.rungs ++ [rung] } := by
    cases fields <;> rfl
  cases number with
  | null => exact hmap _
  | _ =>
    unfold add
    simp only [ne_eq, reduceCtorEq, not_false_eq_true, true_and, if_false]
    split
    · rfl
    · exact hmap _

theorem not_any_isNumber {r : Routine} {n : Int} (h : ∀ k ∈ r.numbers, n ≠ k) :
    ¬ r.numbers.any (FieldValue.integer n).isNumber = true := by
  simpa [FieldValue.isNumber_integer] using h

/-- Without a number, a rung is added with one past the highest. -/
theorem add_next (r : Routine) (text : String) (comment : Option String) :
    r.add text .null (.ofComment comment) =
      .ok { r with rungs := r.rungs ++ [Rung.ofText r.nextNumber text comment] } := by
  rw [add_eq, if_neg (fun h => h.1 rfl), if_pos rfl, Rung.ofFields_natural]
  rfl

theorem add_fresh {r : Routine} {n : Nat} (h : n ∉ r.numbers) (text : String)
    (comment : Option String) :
    r.add text (.integer n) (.ofComment comment) =
      .ok { r with rungs := r.rungs ++ [Rung.ofText n text comment] } := by
  have habsent := not_any_isNumber (r := r) (n := n) fun k hk hn => h (Int.ofNat_inj.1 hn ▸ hk)
  rw [add_eq, if_neg (fun h => habsent h.2), if_neg nofun, Rung.ofFields_natural]
  rfl

theorem add_taken {r : Routine} {n : Nat} (h : n ∈ r.numbers) (text : String)
    (comment : FieldValue) :
    r.add text (.integer n) comment = .error (.duplicateRung r.name (.integer n)) := by
  rw [add_eq, if_pos ⟨nofun, by simpa using h⟩]

theorem add_negative (r : Routine) {n : Int} (h : n < 0) (text : String)
    (comment : Option String) :
    r.add text (.integer n) (.ofComment comment) = .error .negativeNumber := by
  have habsent := not_any_isNumber (r := r) (n := n) fun k _ => by omega
  rw [add_eq, if_neg (fun h => habsent h.2), if_neg nofun, Rung.ofFields_negative h]
  rfl

/-- What is added, whatever was offered, is one rung at the end with a number that was free. -/
theorem add_eq_ok {r new : Routine} {text : String} {number comment : FieldValue}
    (h : r.add text number comment = .ok new) :
    ∃ rung, rung.number ∉ r.numbers ∧ new = { r with rungs := r.rungs ++ [rung] } := by
  rw [add_eq] at h
  split at h
  · cases h
  · rename_i hfree
    rcases hfields : Rung.ofFields (if number = .null then .integer r.nextNumber else number)
      text comment with e | rung
    · rw [hfields] at h
      cases h
    · rw [hfields] at h
      cases h
      refine ⟨rung, fun hmem => ?_, rfl⟩
      obtain ⟨n, c, hnumber, rfl⟩ := Rung.ofFields_eq_ok hfields
      split at hnumber
      · -- the number past the highest is not among the numbers
        obtain rfl : r.nextNumber = n := Int.ofNat_inj.1 (FieldValue.integer.inj hnumber)
        exact Nat.lt_irrefl _ (lt_nextNumber hmem)
      · rename_i hnull
        subst hnumber
        exact hfree ⟨hnull, List.any_eq_true.2 ⟨n, hmem, by simp⟩⟩

/-- A rung takes the place of the one with its number. -/
theorem replace_present {r : Routine} (hnodup : r.numbers.Nodup) {rung : Rung}
    (h : rung.number ∈ r.numbers) :
    ∃ before old after, r.rungs = before ++ old :: after ∧ old.number = rung.number ∧
      (∀ x ∈ before ++ after, x.number ≠ rung.number) ∧
      r.replace rung = .ok { r with rungs := before ++ rung :: after } := by
  obtain ⟨before, old, after, hsplit, hold, hother, hposition⟩ := position_present hnodup h
  refine ⟨before, old, after, hsplit, hold, hother, ?_⟩
  rw [replace, hposition, hsplit]
  simp [bind, Except.bind, pure, Except.pure]

theorem replace_absent {r : Routine} {rung : Rung} (h : rung.number ∉ r.numbers) :
    r.replace rung = .error (.noSuchKey (.integer rung.number)) := by
  have habsent : ∀ k ∈ r.numbers, (rung.number : Int) ≠ k := fun k hk heq =>
    h (Int.ofNat_inj.1 heq ▸ hk)
  rw [replace, position_absent habsent]
  rfl

/-- The rung with the number is removed, and no other one. -/
theorem remove_present {r : Routine} (hnodup : r.numbers.Nodup) {n : Nat} (h : n ∈ r.numbers) :
    ∃ before old after, r.rungs = before ++ old :: after ∧ old.number = n ∧
      (∀ x ∈ before ++ after, x.number ≠ n) ∧
      r.remove (.integer n) = .ok { r with rungs := before ++ after } := by
  obtain ⟨before, old, after, hsplit, hold, hother, hposition⟩ := position_present hnodup h
  refine ⟨before, old, after, hsplit, hold, hother, ?_⟩
  rw [remove, hposition, hsplit]
  simp [bind, Except.bind, pure, Except.pure, List.eraseIdx_append_of_length_le]

theorem remove_absent {r : Routine} {n : Int} (h : ∀ k ∈ r.numbers, n ≠ k) :
    r.remove (.integer n) = .error (.noSuchKey (.integer n)) := by
  rw [remove, position_absent h]
  rfl

/-! ## What the numbers stand for afterwards -/

/-- From one routine to the other, only what the number `n` stands for has changed, to `now`. -/
def ChangesAt (n : Nat) (now : Except Error Rung) (r new : Routine) : Prop :=
  new.rung (.integer n) = now ∧
    ∀ m : Int, m ≠ n → new.rung (.integer m) = r.rung (.integer m)

/-- Rungs that all have one number are found by it, and the first of them is. -/
theorem findRung_of_number_eq {rungs : List Rung} {n : Nat} (h : ∀ x ∈ rungs, x.number = n)
    (m : Int) : findRung rungs m = if m = n then rungs.head? else none := by
  cases rungs with
  | nil => simp [findRung]
  | cons x rungs =>
    split
    · rename_i hm
      have hx : m = x.number := by rw [h x List.mem_cons_self, hm]
      simp [findRung, hx]
    · rename_i hm
      refine List.find?_eq_none.2 fun y hy => ?_
      simpa [h y hy] using hm

theorem findRung_of_number_ne {rungs : List Rung} {n : Nat} (h : ∀ x ∈ rungs, x.number ≠ n) :
    findRung rungs n = none := by
  refine List.find?_eq_none.2 fun x hx => ?_
  simpa [Int.ofNat_inj, eq_comm] using h x hx

/-- **Where only rungs with the number `n` are exchanged, only what this number stands for
    changes.** -/
theorem changesAt_of_exchange {r new : Routine} {n : Nat} (before old fresh after : List Rung)
    (hr : r.rungs = before ++ old ++ after) (hnew : new.rungs = before ++ fresh ++ after)
    (hold : ∀ x ∈ old, x.number = n) (hfresh : ∀ x ∈ fresh, x.number = n)
    (hother : ∀ x ∈ before ++ after, x.number ≠ n) :
    ChangesAt n (fresh.head?.elim (.error (.noSuchKey (.integer n))) .ok) r new := by
  have happend (a b c : List Rung) (m : Int) : findRung (a ++ b ++ c) m =
      ((findRung a m).or (findRung b m)).or (findRung c m) := by
    simp only [findRung, List.find?_append]
  refine ⟨?_, fun m hm => ?_⟩
  · have hbefore : findRung before n = none :=
      findRung_of_number_ne fun x hx => hother x (List.mem_append_left _ hx)
    have hafter : findRung after n = none :=
      findRung_of_number_ne fun x hx => hother x (List.mem_append_right _ hx)
    rw [rung_eq, hnew, happend, hbefore, hafter, findRung_of_number_eq hfresh, if_pos rfl,
      Option.none_or, Option.or_none]
  · rw [rung_eq, rung_eq, hr, hnew, happend, happend, findRung_of_number_eq hold,
      findRung_of_number_eq hfresh, if_neg hm, if_neg hm]

theorem changesAt_add {r : Routine} {rung : Rung} (h : rung.number ∉ r.numbers) :
    ChangesAt rung.number (.ok rung) r { r with rungs := r.rungs ++ [rung] } := by
  refine changesAt_of_exchange r.rungs [] [rung] [] (by simp) (by simp) (by simp) (by simp)
    fun x hx heq => h ?_
  rw [List.append_nil] at hx
  exact heq ▸ List.mem_map_of_mem hx

/-! ## Runs of operations -/

/-- Where a routine comes from: it has only a name yet, or rungs with these texts. -/
inductive Origin where
  | blank (name : String)
  | ofTexts (name : String) (texts : List String)

/-- The routine at its origin. -/
def Origin.routine : Origin → Routine
  | .blank name => { name }
  | .ofTexts name texts => Routine.ofTexts name texts

/-- An operation on a routine; anything may be offered as a number, a comment or a key. -/
inductive Operation where
  | add (text : String) (number comment : FieldValue)
  | replace (rung : Rung)
  | remove (key : FieldValue)
  | renumber

/-- What an operation makes of a routine. -/
def Operation.apply (r : Routine) : Operation → Except Error Routine
  | .add text number comment => r.add text number comment
  | .replace rung => r.replace rung
  | .remove key => r.remove key
  | .renumber => .ok r.renumber

/-- The routine after an operation; one that fails leaves it as it was. -/
def perform (r : Routine) (op : Operation) : Routine :=
  match op.apply r with
  | .ok new => new
  | .error _ => r

/-- The routine after some operations, one after another. -/
def run (origin : Origin) (ops : List Operation) : Routine := ops.foldl perform origin.routine

/-- Rungs that get their positions as numbers have the numbers from 0 on. -/
theorem map_number_mapIdx {α : Type} (xs : List α) {f : Nat → α → Rung}
    (hf : ∀ k x, (f k x).number = k) :
    (xs.mapIdx f).map Rung.number = List.range xs.length := by
  refine List.ext_getElem (by simp) fun k _ _ => ?_
  simp [hf]

/-- **An operation keeps the numbers distinct.** -/
theorem nodup_perform {r : Routine} (h : r.numbers.Nodup) (op : Operation) :
    (r.perform op).numbers.Nodup := by
  unfold perform
  split
  · rename_i new hnew
    cases op with
    | add text number comment =>
      obtain ⟨rung, hfree, rfl⟩ := add_eq_ok hnew
      rw [numbers, List.map_append]
      exact h.append (List.nodup_singleton _) (by simpa using hfree)
    | replace rung =>
      by_cases hmem : rung.number ∈ r.numbers
      · obtain ⟨before, old, after, hsplit, hold, -, hresult⟩ := replace_present h hmem
        obtain rfl := Except.ok.inj (hresult.symm.trans hnew)
        simpa [numbers, hsplit, hold] using h
      · cases (replace_absent hmem).symm.trans hnew
    | remove key =>
      simp only [Operation.apply, remove] at hnew
      rcases hposition : r.position key with e | k
      · rw [hposition] at hnew
        cases hnew
      · rw [hposition] at hnew
        cases hnew
        exact h.sublist ((List.eraseIdx_sublist _ k).map Rung.number)
    | renumber =>
      cases hnew
      rw [numbers, renumber, map_number_mapIdx _ fun _ _ => rfl]
      exact List.nodup_range
  · exact h

theorem nodup_run (origin : Origin) (ops : List Operation) : (run origin ops).numbers.Nodup := by
  have horigin : origin.routine.numbers.Nodup := by
    cases origin with
    | blank name => exact List.nodup_nil
    | ofTexts name texts =>
      rw [numbers, Origin.routine, ofTexts, map_number_mapIdx _ fun _ _ => rfl]
      exact List.nodup_range
  unfold run
  generalize origin.routine = r at horigin
  induction ops generalizing r with
  | nil => exact horigin
  | cons op ops ih => exact ih _ (nodup_perform horigin op)

/-! ## The laws -/

/-- The routine behaves as a map from numbers to rungs that keeps the order of insertion. -/
structure IsKeyed (r : Routine) : Prop where
  distinct : r.numbers.Nodup
  /-- Without a number, a rung is added at the end with one past all others. -/
  add_next (text : String) (comment : Option String) :
    ∃ (n : Nat) (new : Routine), (∀ k ∈ r.numbers, k < n) ∧
      r.add text .null (.ofComment comment) = .ok new ∧ new.name = r.name ∧
      new.rungs = r.rungs ++ [Rung.ofText n text comment] ∧
      ChangesAt n (.ok (Rung.ofText n text comment)) r new
  /-- A rung is added at the end with a number that is free. -/
  add_free (n : Nat) (text : String) (comment : Option String) : n ∉ r.numbers →
    ∃ new : Routine, r.add text (.integer n) (.ofComment comment) = .ok new ∧
      new.name = r.name ∧ new.rungs = r.rungs ++ [Rung.ofText n text comment] ∧
      ChangesAt n (.ok (Rung.ofText n text comment)) r new
  add_taken (n : Nat) (text : String) (comment : Option String) : n ∈ r.numbers →
    r.add text (.integer n) (.ofComment comment) = .error (.duplicateRung r.name (.integer n))
  add_negative (n : Int) (text : String) (comment : Option String) : n < 0 →
    r.add text (.integer n) (.ofComment comment) = .error .negativeNumber
  /-- A rung takes the place of the one with its number. -/
  replace_present (rung : Rung) : rung.number ∈ r.numbers →
    ∃ new, r.replace rung = .ok new ∧ new.name = r.name ∧ new.numbers = r.numbers ∧
      ChangesAt rung.number (.ok rung) r new
  replace_absent (rung : Rung) : rung.number ∉ r.numbers →
    r.replace rung = .error (.noSuchKey (.integer rung.number))
  /-- The one rung with a number is removed. -/
  remove_present (n : Nat) : n ∈ r.numbers →
    ∃ before old after new, r.rungs = before ++ old :: after ∧ old.number = n ∧
      r.remove (.integer n) = .ok new ∧ new.name = r.name ∧ new.rungs = before ++ after ∧
      ChangesAt n (.error (.noSuchKey (.integer n))) r new
  remove_absent (n : Int) : (∀ k ∈ r.numbers, n ≠ k) →
    r.remove (.integer n) = .error (.noSuchKey (.integer n))
  /-- Numbering anew changes nothing but the numbers. -/
  renumber : r.renumber.name = r.name ∧
    r.renumber.numbers = List.range r.rungs.length ∧
    r.renumber.rungs.map (fun x => (x.text, x.elements, x.comment)) =
      r.rungs.map fun x => (x.text, x.elements, x.comment)

/-- **After any run of operations, a routine behaves as a map from numbers to rungs that keeps the
    order of insertion**: its numbers are distinct, and each further operation does what it does to
    the rung that it names, and nothing to any other. -/
theorem isKeyed_run (origin : Origin) (ops : List Operation) : (run origin ops).IsKeyed := by
  have hnodup := nodup_run origin ops
  generalize run origin ops = r at hnodup
  have hnext : r.nextNumber ∉ r.numbers := fun h => Nat.lt_irrefl _ (lt_nextNumber h)
  refine
    { distinct := hnodup
      add_next := fun text comment => ⟨r.nextNumber, _, fun _ => lt_nextNumber,
        r.add_next text comment, rfl, rfl, changesAt_add hnext⟩
      add_free := fun n text comment h => ⟨_, add_fresh h text comment, rfl, rfl,
        changesAt_add h⟩
      add_taken := fun n text comment h => add_taken h text _
      add_negative := fun n text comment h => r.add_negative h text comment
      replace_present := fun rung h => ?_
      replace_absent := fun rung h => replace_absent h
      remove_present := fun n h => ?_
      remove_absent := fun n h => remove_absent h
      renumber := ⟨rfl, map_number_mapIdx _ fun _ _ => rfl, ?_⟩ }
  · obtain ⟨before, old, after, hsplit, hold, hother, hresult⟩ := Routine.replace_present hnodup h
    refine ⟨_, hresult, rfl, ?_, ?_⟩
    · simp [numbers, hsplit, hold]
    · exact changesAt_of_exchange before [old] [rung] after (by simpa using hsplit) (by simp)
        (by simpa using hold) (by simp) hother
  · obtain ⟨before, old, after, hsplit, hold, hother, hresult⟩ := Routine.remove_present hnodup h
    refine ⟨before, old, after, _, hsplit, hold, hresult, rfl, rfl, ?_⟩
    exact changesAt_of_exchange before [old] [] after (by simpa using hsplit) (by simp)
      (by simpa using hold) (by simp) hother
  · refine List.ext_getElem (by simp [Routine.renumber]) fun k _ _ => ?_
    simp [Routine.renumber]

example : (run (.blank "R") [.add "" (.integer 7) .null, .add "" (.integer 3) .null,
    .add "" .null .null, .remove (.integer 7), .add "" (.integer 3) .null]).numbers = [3, 8] := by
  decide +kernel

end Routine

end RelayLadder
