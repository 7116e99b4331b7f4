/-
  Every operand keeps its value under a name of its own.

  * `Labels.foldl_put`: values that are put under distinct new names are all kept, in order;
  * `NamesApart`: the names that an instruction's first operands go by are distinct, and none is a
    name by position.  So it is for the catalog and for instructions without an entry
    (`namesApart_operandNames`), and so no two operands get one name (`operandName_injective`);
  * `labels_eq`: the labels of an instruction are its values in order, each under its name;
  * `labels_keep_operands`: they have as many entries as there are values, and so have the fields of
    every region that is drawn.
-/
import Mathlib.Data.List.Nodup
import RelayLadder.Proofs.Numerals
import RelayLadder.Proofs.Regions

namespace RelayLadder

/-! ## Values under names -/

namespace Labels

/-- A new name goes to the end. -/
theorem put_of_not_mem {labels : Labels} {name value : String}
    (h : name ∉ labels.map Prod.fst) : labels.put name value = labels ++ [(name, value)] := by
  induction labels with
  | nil => rfl
  | cons entry labels ih =>
    obtain ⟨hne, hnotMem⟩ := not_or.1 (List.mem_cons.not.1 h)
    rw [put, if_neg (Ne.symm hne), ih hnotMem, List.cons_append]

/-- Values under distinct new names are all kept. -/
theorem foldl_put {entries labels : Labels} (h : ((labels ++ entries).map Prod.fst).Nodup) :
    entries.foldl (fun ls entry => ls.put entry.1 entry.2) labels = labels ++ entries := by
  induction entries generalizing labels with
  | nil => simp
  | cons entry entries ih =>
    have hnew : entry.1 ∉ labels.map Prod.fst := by
      intro hmem
      rw [List.map_append, List.map_cons] at h
      exact (List.nodup_append.1 h).2.2 _ hmem _ List.mem_cons_self rfl
    have hrest : ((labels ++ [entry] ++ entries).map Prod.fst).Nodup := by
      rwa [List.append_assoc]
    rw [List.foldl_cons, put_of_not_mem hnew, ih hrest, List.append_assoc, List.singleton_append]

end Labels

/-! ## Names of operands -/

/-- Names for the first operands that are told apart from each other, and from the names that later
    operands get by their positions. -/
structure NamesApart (names : List String) : Prop where
  nodup : names.Nodup
  not_positional : ∀ k : Nat, "param" ++ toString k ∉ names

/-- No name that starts in another way is a name by position. -/
theorem namesApart_of_not_prefix {names : List String} (hnodup : names.Nodup)
    (h : ∀ name ∈ names, ¬ "param".toList <+: name.toList) : NamesApart names := by
  refine ⟨hnodup, fun k hk => h _ hk ?_⟩
  rw [String.toList_append]
  exact List.prefix_append _ _

theorem namesApart_operandNames_of_mem_catalog :
    ∀ spec ∈ catalog, NamesApart spec.operandNames := by
  have hcatalog : ∀ spec ∈ catalog, spec.operandNames.Nodup ∧
      ∀ name ∈ spec.operandNames, ¬ "param".toList <+: name.toList := by decide +kernel
  intro spec hspec
  obtain ⟨hnodup, hprefix⟩ := hcatalog spec hspec
  exact namesApart_of_not_prefix hnodup hprefix

theorem namesApart_conventionalNames (count : Nat) : NamesApart (conventionalNames count) := by
  unfold conventionalNames
  split <;> exact namesApart_of_not_prefix (by decide +kernel) (by decide +kernel)

/-- The first operands of an instruction, with or without an entry in the catalog, have names that
    are told apart. -/
theorem namesApart_operandNames (i : Instruction) : NamesApart i.operandNames := by
  unfold Instruction.operandNames
  split
  · rename_i spec hspec
    exact namesApart_operandNames_of_mem_catalog spec (List.mem_of_find?_eq_some hspec)
  · exact namesApart_conventionalNames i.values.length

/-- **No two positions have one name**, whether it is given first or made from the position. -/
theorem operandName_injective {names : List String} (h : NamesApart names) :
    Function.Injective (operandName names) := by
  intro j k hjk
  unfold operandName at hjk
  rcases hj : names[j]? with _ | a <;> rcases hk : names[k]? with _ | b <;>
    rw [hj, hk] at hjk
  · -- both names are made from the position
    rw [Option.getD_none, Option.getD_none, String.append_right_inj] at hjk
    exact Function.LeftInverse.injective numeralValue_toString hjk
  · rw [Option.getD_none, Option.getD_some] at hjk
    exact absurd (hjk ▸ List.mem_of_getElem? hk) (h.not_positional j)
  · rw [Option.getD_none, Option.getD_some] at hjk
    exact absurd (hjk ▸ List.mem_of_getElem? hj) (h.not_positional k)
  · -- both names are given
    rw [Option.getD_some, Option.getD_some] at hjk
    obtain ⟨hlt, -⟩ := List.getElem?_eq_some_iff.1 hj
    exact (List.getElem?_inj hlt h.nodup).1 (by rw [hj, hk, hjk])

/-! ## Labels -/

namespace Instruction

/-- The operand values in order, each with the name of its position. -/
def namedValues (i : Instruction) : Labels :=
  i.values.zipIdx.map fun entry => (operandName i.operandNames entry.2, entry.1)

theorem nodup_names_namedValues (i : Instruction) : (i.namedValues.map Prod.fst).Nodup := by
  have hnames : i.namedValues.map Prod.fst =
      (List.range' 0 i.values.length).map (operandName i.operandNames) := by
    rw [← List.zipIdx_map_snd 0 i.values, namedValues, List.map_map, List.map_map]
    rfl
  rw [hnames]
  exact List.Nodup.map (operandName_injective (namesApart_operandNames i)) (List.nodup_range' 1)

/-- **The labels of an instruction are its values in order, each under its name.** -/
theorem labels_eq (i : Instruction) : i.labels = i.namedValues := by
  have hnodup : (([] ++ i.namedValues : Labels).map Prod.fst).Nodup := i.nodup_names_namedValues
  have hkept := Labels.foldl_put hnodup
  rwa [List.nil_append, namedValues, List.foldl_map] at hkept

theorem nodup_names_labels (i : Instruction) : (i.labels.map Prod.fst).Nodup :=
  i.labels_eq ▸ i.nodup_names_namedValues

theorem map_value_labels (i : Instruction) : i.labels.map Prod.snd = i.values := by
  rw [labels_eq, namedValues, List.map_map]
  exact List.zipIdx_map_fst 0 i.values

end Instruction

namespace Layout

variable {α : Type} [Scalar α]

theorem map_instruction_regions_layout (es : Series) (rung : Int) (c : Config α) :
    (layout es rung c).regions.map HitRegion.instruction = Series.instructions es := by
  have h := congrArg (List.map Address.instruction) (map_address_regions_layout es rung c)
  rw [List.map_map, List.map_map] at h
  exact h.trans (Series.map_instruction_walk es)

/-- **No operand is lost when values get names.**  The labels of an instruction have one entry for
    each value, no two of them under one name, and hold the values in order.  So do the fields of
    the regions that are drawn for the instructions of a rung, one by one. -/
theorem labels_keep_operands :
    (∀ i : Instruction, (i.labels.map Prod.fst).Nodup ∧ i.labels.length = i.values.length ∧
      i.labels.map Prod.snd = i.values) ∧
    ∀ (es : Series) (rung : Int) (c : Config α),
      (layout es rung c).regions.map (fun r => r.fields.map Prod.snd) =
        (Series.instructions es).map Instruction.values ∧
      ∀ r ∈ (layout es rung c).regions, (r.fields.map Prod.fst).Nodup := by
  have hfields (es : Series) (rung : Int) (c : Config α) :
      ∀ r ∈ (layout es rung c).regions, r.fields = r.instruction.labels :=
    fun r hr => congrArg Address.fields (address_of_mem_regions_layout hr)
  refine ⟨fun i => ⟨i.nodup_names_labels, ?_, i.map_value_labels⟩, fun es rung c => ⟨?_, ?_⟩⟩
  · rw [← i.map_value_labels, List.length_map]
  · rw [← map_instruction_regions_layout es rung c, List.map_map]
    refine List.map_congr_left fun r hr => ?_
    rw [hfields es rung c r hr]
    exact r.instruction.map_value_labels
  · intro r hr
    rw [hfields es rung c r hr]
    exact r.instruction.nodup_names_labels

-- more values than the catalog has names for, and one of them empty
example : (Instruction.mk "TON" (.nary ["T", "5", "", "x", "T"]) (by decide)).labels =
    [("timer", "T"), ("preset", "5"), ("accum", ""), ("param3", "x"), ("param4", "T")] := by
  decide +kernel

end Layout

end RelayLadder
