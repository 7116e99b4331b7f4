/-
  Which documents are read, and what becomes of the others.

  A document is refused if it is not well-formed or has another root.  Beyond that, a rung number
  that is made of digits can be no numeral, and reading fails at the first such number.

  * `mapM_eq`: what can fail item by item fails as the first item does;
  * `ofRoot_eq`: so a document with the right root gives the routines in it, or the fault of the
    first rung number that has one;
  * `reads_or_refuses_iff`: with any library that reads just the well-formed documents, reading gives
    routines or refuses the document, exactly if no number has a fault.
-/
import RelayLadder.L5X.Reader
import RelayLadder.Proofs.MarkupReading
import RelayLadder.Proofs.Numerals
import RelayLadder.StandIn.Writer

namespace RelayLadder

open Text

/-! ## Failing item by item -/

/-- **What can fail item by item fails as the first item does that fails.** -/
theorem mapM_eq {α β : Type} {f : α → Except Error β} {fault : α → Option Error} {value : α → β}
    (h : ∀ x, f x = (fault x).elim (.ok (value x)) .error) (xs : List α) :
    xs.mapM f = (xs.findSome? fault).elim (.ok (xs.map value)) .error := by
  induction xs with
  | nil => rfl
  | cons x xs ih =>
    rw [List.mapM_cons, h, ih, List.findSome?_cons]
    cases fault x with
    | some e => rfl
    | none => cases xs.findSome? fault <;> rfl

theorem findSome?_filterMap {α β γ : Type} (f : α → Option β) (g : β → Option γ) (xs : List α) :
    (xs.filterMap f).findSome? g = xs.findSome? fun x => (f x).bind g := by
  rw [← List.head?_filterMap, List.filterMap_filterMap, List.head?_filterMap]

theorem findSome?_flatMap {α β γ : Type} (f : α → List β) (g : β → Option γ) (xs : List α) :
    (xs.flatMap f).findSome? g = xs.findSome? fun x => (f x).findSome? g := by
  simp only [← List.head?_filterMap, List.filterMap_flatMap, List.head?_flatMap]

namespace L5X

open Xml

/-! ## Rungs and routines -/

/-- The number that a rung states for itself, if this is made of digits. -/
def statedNumber? (n : Node) : Option String :=
  (n.attribute? "Number").filter fun s => s ≠ "" ∧ s.toList.all isDigit

/-- The number of a rung: the one stated, else the rung's position. -/
def numberOf (n : Node) (position : Nat) : Nat :=
  ((statedNumber? n).map numeralValue).getD position

/-- The rung of an element at this position. -/
def rungOf (n : Node) (position : Nat) : Rung :=
  .ofText (numberOf n position) ((strippedText (n.child? "Text")).getD "")
    (strippedText (n.child? "Comment"))

/-- The rungs of a routine's content. -/
def rungsOf (content : Node) : List Rung :=
  (content.childrenNamed "Rung").zipIdx.map fun (n, position) => rungOf n position

/-- The routines below a root. -/
def routinesOf (root : Node) : List Routine :=
  (ladderContents root).map fun (name, content) => ⟨name, rungsOf content⟩

/-- The numbers that rungs state for themselves, in a routine's content. -/
def numbersIn (content : Node) : List String :=
  (content.childrenNamed "Rung").filterMap statedNumber?

/-- The numbers that rungs state for themselves, below a root. -/
def statedNumbers (root : Node) : List String :=
  (ladderContents root).flatMap fun (_, content) => numbersIn content

theorem rungNumber_eq (n : Node) (position : Nat) :
    rungNumber (n.attribute? "Number") position =
      ((statedNumber? n).bind numeralFault?).elim (.ok (numberOf n position)) .error := by
  unfold numberOf statedNumber?
  cases n.attribute? "Number" with
  | none => rfl
  | some s =>
    rw [rungNumber, Option.filter_some]
    by_cases hdigits : s ≠ "" ∧ s.toList.all isDigit = true
    · rw [if_pos hdigits, if_pos (decide_eq_true hdigits), natOfDigits_eq]
      rfl
    · rw [if_neg hdigits, if_neg (by simpa using hdigits)]
      rfl

theorem readRung_eq (n : Node) (position : Nat) :
    readRung n position =
      ((statedNumber? n).bind numeralFault?).elim (.ok (rungOf n position)) .error := by
  rw [readRung, rungNumber_eq]
  cases (statedNumber? n).bind numeralFault? <;> rfl

/-- The rungs of a content fail to be read with the fault of the first number that has one. -/
theorem readRungs_eq (content : Node) :
    readRungs content =
      ((numbersIn content).findSome? numeralFault?).elim (.ok (rungsOf content)) .error := by
  have hread := mapM_eq (f := fun p : Node × Nat => readRung p.1 p.2) (fun p => readRung_eq p.1 p.2)
    (content.childrenNamed "Rung").zipIdx
  have hfault : (content.childrenNamed "Rung").zipIdx.findSome?
        (fun p => (statedNumber? p.1).bind numeralFault?) =
      (numbersIn content).findSome? numeralFault? := by
    rw [numbersIn, findSome?_filterMap]
    conv_rhs => rw [← List.zipIdx_map_fst 0 (content.childrenNamed "Rung"), List.findSome?_map]
    rfl
  rw [hfault] at hread
  exact hread

/-- **The routines below the right root are read, or the first rung number that has a fault tells
    why not.** -/
theorem ofRoot_eq {root : Node} (h : root.tag = rootTag) :
    ofRoot root =
      ((statedNumbers root).findSome? numeralFault?).elim (.ok (routinesOf root)) .error := by
  have hcontent : ∀ p : String × Node, (do return ⟨p.1, ← readRungs p.2⟩ : Except Error Routine) =
      ((numbersIn p.2).findSome? numeralFault?).elim (.ok ⟨p.1, rungsOf p.2⟩) .error := by
    intro p
    rw [readRungs_eq]
    cases (numbersIn p.2).findSome? numeralFault? <;> rfl
  rw [ofRoot, if_pos h, statedNumbers, findSome?_flatMap]
  exact mapM_eq hcontent (ladderContents root)

/-! ## Documents -/

/-- The cause is one for which a document is refused. -/
def Refuses (e : Error) : Prop := e = .malformedDocument ∨ ∃ tag, e = .wrongRoot rootTag tag

theorem not_refuses_of_numeralFault? {s : String} {e : Error} (h : numeralFault? s = some e) :
    ¬ Refuses e := by
  unfold numeralFault? at h
  rintro (rfl | ⟨tag, rfl⟩)
  all_goals
    split at h
    · cases h
    · simp only [Option.some.injEq] at h
      split at h <;> cases h

theorem findSome?_numeralFault?_eq_none_iff {ss : List String} :
    ss.findSome? numeralFault? = none ↔ ∀ s ∈ ss, IsNumeral s := by
  simp only [List.findSome?_eq_none_iff, numeralFault?_eq_none_iff]

/-- A document with the right root is read without fault, or no cause for refusing it comes up. -/
theorem ofRoot_reads_or_refuses_iff {root : Node} :
    ((∃ routines, ofRoot root = .ok routines) ∨ ∃ e, ofRoot root = .error e ∧ Refuses e) ↔
      (root.tag = rootTag → ∀ s ∈ statedNumbers root, IsNumeral s) := by
  by_cases htag : root.tag = rootTag
  · rw [ofRoot_eq htag, ← findSome?_numeralFault?_eq_none_iff]
    cases hfault : (statedNumbers root).findSome? numeralFault? with
    | none => exact iff_of_true (.inl ⟨_, rfl⟩) fun _ => rfl
    | some e =>
      obtain ⟨s, -, hs⟩ := List.exists_of_findSome?_eq_some hfault
      refine iff_of_false ?_ fun h => nomatch h htag
      rintro (⟨routines, h⟩ | ⟨e', h, hrefuses⟩)
      · cases h
      · cases h
        exact not_refuses_of_numeralFault? hs hrefuses
  · refine iff_of_true (.inr ⟨_, if_neg htag, .inr ⟨root.tag, rfl⟩⟩) fun h => absurd h htag

/-- A root is there, so the document is not refused as malformed. -/
theorem ofRoot_ne_malformedDocument (root : Node) : ofRoot root ≠ .error .malformedDocument := by
  by_cases htag : root.tag = rootTag
  · rw [ofRoot_eq htag]
    cases hfault : (statedNumbers root).findSome? numeralFault? with
    | none => exact nofun
    | some e =>
      obtain ⟨s, -, hs⟩ := List.exists_of_findSome?_eq_some hfault
      intro h
      exact not_refuses_of_numeralFault? hs (.inl (Except.error.inj h))
  · rw [ofRoot, if_neg htag]
    exact nofun

/-- **Reading gives routines or refuses the document, exactly if each rung number that is made of
    digits is a numeral.**  What is not well-formed is refused as such; of a well-formed document
    with the right root, whatever else is in it, all routines are read, or the fault of the first
    number that is no numeral is told. -/
theorem reads_or_refuses_iff {xml : Library} {WellFormed : ByteArray → Prop}
    (h : xml.Discerns WellFormed) (bytes : ByteArray) :
    (((∃ routines, read xml bytes = .ok routines) ∨ ∃ e, read xml bytes = .error e ∧ Refuses e) ↔
      ∀ root, xml.read (withoutMark bytes) = some root → root.tag = rootTag →
        ∀ s ∈ statedNumbers root, IsNumeral s) ∧
    (read xml bytes = .error .malformedDocument ↔ ¬ WellFormed (withoutMark bytes)) ∧
    ∀ root, xml.read (withoutMark bytes) = some root → root.tag = rootTag →
      read xml bytes =
        ((statedNumbers root).findSome? numeralFault?).elim (.ok (routinesOf root)) .error := by
  rw [← h (withoutMark bytes), read]
  cases xml.read (withoutMark bytes) with
  | none =>
    refine ⟨iff_of_true (.inr ⟨_, rfl, .inl rfl⟩) ?_, iff_of_true rfl ?_, ?_⟩
    · exact fun _ h => nomatch h
    · rintro ⟨root, hroot⟩
      cases hroot
    · exact fun _ h => nomatch h
  | some root =>
    simp only [Option.some.injEq, forall_eq', exists_eq', not_true_eq_false, iff_false]
    exact ⟨ofRoot_reads_or_refuses_iff, ofRoot_ne_malformedDocument root, ofRoot_eq⟩

/-- A number that is not made of digits gives way to the rung's position. -/
theorem reads_or_refuses_iff_positions :
    let text := "<RSLogix5000Content><Controller><Programs><Program><Routines><Routine>" ++
      "<RLLContent><Rung Number='7'/><Rung Number='-1'/></RLLContent>" ++
      "</Routine></Routines></Program></Programs></Controller></RSLogix5000Content>"
    (StandIn.xml.Discerns fun bytes => (StandIn.xml.read bytes).isSome) ∧
      ∃ routines, read StandIn.xml text.toUTF8 = .ok routines ∧
        routines.map Routine.numbers = [[7, 1]] := by
  intro text
  have hdiscerns : StandIn.xml.Discerns fun bytes => (StandIn.xml.read bytes).isSome :=
    fun bytes => Option.isSome_iff_exists.symm
  have hmark : withoutMark text.toUTF8 = text.toUTF8 := rfl
  have hread : (StandIn.Document.read text).map (fun root =>
      (root.tag, statedNumbers root, (routinesOf root).map Routine.numbers)) =
        some (rootTag, ["7"], [[7, 1]]) := by
    decide +kernel
  obtain ⟨root, hroot, h⟩ := Option.map_eq_some_iff.1 hread
  obtain ⟨htag, h⟩ := Prod.mk.inj h
  obtain ⟨hnumbers, hroutines⟩ := Prod.mk.inj h
  obtain ⟨-, -, hbytes⟩ := reads_or_refuses_iff hdiscerns text.toUTF8
  refine ⟨hdiscerns, routinesOf root, ?_, hroutines⟩
  rw [hbytes root (by rw [hmark, StandIn.xml_read_toUTF8, hroot]) htag, hnumbers]
  rfl

/-- A superscript is a digit, and no numeral. -/
theorem read_superscript :
    let text := "<RSLogix5000Content><Controller><Programs><Program><Routines><Routine>" ++
      "<RLLContent><Rung Number='²'/></RLLContent>" ++
      "</Routine></Routines></Program></Programs></Controller></RSLogix5000Content>"
    (StandIn.xml.read text.toUTF8).map Node.tag = some rootTag ∧
    read StandIn.xml text.toUTF8 = .error (.badNumeral "²") ∧
    ¬ ((∃ routines, read StandIn.xml text.toUTF8 = .ok routines) ∨
      ∃ e, read StandIn.xml text.toUTF8 = .error e ∧ Refuses e) := by
  intro text
  have hmark : withoutMark text.toUTF8 = text.toUTF8 := rfl
  have hroot : (StandIn.Document.read text).map
      (fun root => (root.tag, (statedNumbers root).findSome? numeralFault?)) =
        some (rootTag, some (.badNumeral "²")) := by
    decide +kernel
  obtain ⟨root, hroot, h⟩ := Option.map_eq_some_iff.1 hroot
  obtain ⟨htag, hfault⟩ := Prod.mk.inj h
  have hread : read StandIn.xml text.toUTF8 = .error (.badNumeral "²") := by
    rw [read, hmark, StandIn.xml_read_toUTF8, hroot]
    exact (ofRoot_eq htag).trans (by rw [hfault]; rfl)
  refine ⟨by rw [StandIn.xml_read_toUTF8, hroot, Option.map_some, htag], hread, ?_⟩
  rw [hread]
  rintro (⟨routines, h⟩ | ⟨e, h, h' | ⟨tag, h'⟩⟩)
  all_goals cases h
  all_goals cases h'

end L5X

end RelayLadder
