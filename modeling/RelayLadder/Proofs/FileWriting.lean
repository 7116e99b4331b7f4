/-
  What writing files changes.

  * `walk_of_directories_eq`: ways depend on directories only, which writing leaves as they are;
  * `write_eq_ok_iff`: a file is written exactly if the path leads to where a file can be;
  * `lookup_put`: the file then holds what was written, and the others hold what they held;
  * `lookup_putAll`: so of many files, each holds what was written to it last.
-/
import Mathlib.Data.List.Induction
import Mathlib.Data.List.Nodup
import RelayLadder.FileTree

namespace RelayLadder

/-! ## Ways -/

/-- The place that a path leads to, if there are directories all the way. -/
def Path.place (p : Path) : FilePlace :=
  p.parts.foldl FilePlace.step (if p.root = "" then [] else FilePlace.root)

theorem Path.place_child (p : Path) {name : String} (h : name ≠ "..") :
    (p.child name).place = p.place ++ [name] := by
  rw [place, child, List.foldl_append]
  exact if_pos h

namespace FileTree

variable {t u : FileTree} {p : Path} {content : String}

theorem entry_eq_directory_iff {place : FilePlace} :
    t.entry place = .directory ↔
      place = FilePlace.root ∨ place.isAbove ∨ t.directories.contains place := by
  unfold entry
  split
  · rename_i h
    exact iff_of_true rfl h
  · rename_i h
    refine iff_of_false ?_ h
    cases t.files.lookup place <;> exact nofun

theorem eq_foldl_of_walk {place q : FilePlace} {parts : List String}
    (h : t.walk p place parts = .ok q) : q = parts.foldl FilePlace.step place := by
  induction parts generalizing place with
  | nil => exact (Except.ok.inj h).symm
  | cons part parts ih =>
    unfold walk at h
    split at h
    · cases h
    · cases h
    · split at h
      · cases h
      · exact ih h

/-- Only the directories matter for a way. -/
theorem walk_of_directories_eq (hu : u.directories = t.directories) {place q : FilePlace}
    {parts : List String} (h : t.walk p place parts = .ok q) : u.walk p place parts = .ok q := by
  induction parts generalizing place with
  | nil => exact h
  | cons part parts ih =>
    unfold walk at h ⊢
    split at h
    · cases h
    · cases h
    · rename_i hdirectory
      have hdirectory' : u.entry place = .directory := by
        rwa [entry_eq_directory_iff, hu, ← entry_eq_directory_iff]
      rw [hdirectory']
      split at h
      · cases h
      · rename_i hshort
        simp only [if_neg hshort]
        exact ih h

/-! ## Writing and reading -/

/-- The path leads to where a file is or can be. -/
structure Writable (t : FileTree) (p : Path) : Prop where
  leads : t.resolve p = .ok p.place
  free : t.entry p.place ≠ .directory

theorem Writable.of_directories_eq (h : t.Writable p) (hu : u.directories = t.directories) :
    u.Writable p :=
  ⟨walk_of_directories_eq hu h.leads, by
    rw [ne_eq, entry_eq_directory_iff, hu, ← entry_eq_directory_iff]
    exact h.free⟩

/-- The tree with this content in the file. -/
def put (t : FileTree) (p : Path) (content : String) : FileTree :=
  { t with files := t.files.filter (·.1 ≠ p.place) ++ [(p.place, content)] }

theorem write_eq_ok_iff : t.write p content = .ok u ↔ t.Writable p ∧ u = t.put p content := by
  unfold write
  cases hresolve : t.resolve p with
  | error e =>
    refine iff_of_false nofun fun h => ?_
    rw [h.1.leads] at hresolve
    cases hresolve
  | ok place =>
    obtain rfl : place = p.place := eq_foldl_of_walk hresolve
    simp only [bind, Except.bind]
    cases hentry : t.entry p.place with
    | directory => exact iff_of_false nofun fun h => h.1.free hentry
    | _ =>
      have hwritable : t.Writable p := ⟨hresolve, by simp [hentry]⟩
      exact ⟨fun h => ⟨hwritable, (Except.ok.inj h).symm⟩, fun h => by rw [h.2]; rfl⟩

theorem lookup_cons {α β : Type} [BEq α] [LawfulBEq α] [DecidableEq α] {k a : α} {b : β}
    {entries : List (α × β)} :
    ((a, b) :: entries).lookup k = if k = a then some b else entries.lookup k := by
  by_cases h : k = a
  · rw [h, List.lookup_cons_self, if_pos rfl]
  · rw [List.lookup_cons, beq_false_of_ne h, if_neg h]

theorem lookup_of_nodup {α β : Type} [BEq α] [LawfulBEq α] {entries : List (α × β)} {k : α} {b : β}
    (hnodup : (entries.map Prod.fst).Nodup) (h : (k, b) ∈ entries) : entries.lookup k = some b := by
  obtain ⟨as, bs, rfl⟩ := List.append_of_mem h
  refine List.lookup_eq_some_iff.2 ⟨as, bs, rfl, fun p hp => ?_⟩
  rw [List.map_append, List.nodup_append] at hnodup
  have hne := hnodup.2.2 p.1 (List.mem_map_of_mem hp) k (by simp)
  simpa using hne.symm

theorem lookup_filter_ne (files : List (FilePlace × String)) (place q : FilePlace) :
    (files.filter (·.1 ≠ q)).lookup place = if place = q then none else files.lookup place := by
  induction files with
  | nil => simp
  | cons file files ih =>
    obtain ⟨r, content⟩ := file
    by_cases hr : r = q
    · subst hr
      rw [List.filter_cons_of_neg (by simp), ih, lookup_cons]
      split <;> rfl
    · rw [List.filter_cons_of_pos (by simpa using hr), lookup_cons, lookup_cons, ih]
      by_cases hplace : place = r
      · rw [if_pos hplace, if_pos hplace, if_neg (hplace ▸ hr)]
      · rw [if_neg hplace, if_neg hplace]

theorem lookup_put {place : FilePlace} :
    (t.put p content).files.lookup place =
      if place = p.place then some content else t.files.lookup place := by
  rw [put, List.lookup_append, lookup_filter_ne, lookup_cons]
  split
  · rfl
  · exact Option.or_none

/-- What is in a file is read. -/
theorem Writable.read (h : t.Writable p) (hfile : t.files.lookup p.place = some content) :
    t.read p = .ok content := by
  have hentry : t.entry p.place = .file content := by
    have hfree := h.free
    rw [ne_eq, entry_eq_directory_iff] at hfree
    rw [entry, if_neg hfree, hfile]
  unfold FileTree.read
  rw [h.leads]
  simp only [bind, Except.bind, hentry]
  rfl

theorem makeDirectory_of_makeInside (h : t.makeInside p = .ok u) : t.makeDirectory p = .ok u := by
  rw [makeDirectory, h]

/-! ## Many files -/

/-- The tree with these contents in files of the directory, one written after the other. -/
def putAll (t : FileTree) (dir : Path) (contents : List (String × String)) : FileTree :=
  contents.foldl (fun t c => t.put (dir.child c.1) c.2) t

theorem putAll_cons (dir : Path) (c : String × String) (contents : List (String × String)) :
    t.putAll dir (c :: contents) = (t.put (dir.child c.1) c.2).putAll dir contents := rfl

theorem putAll_append (dir : Path) (as bs : List (String × String)) :
    t.putAll dir (as ++ bs) = (t.putAll dir as).putAll dir bs := List.foldl_append

theorem putAll_directories (dir : Path) (contents : List (String × String)) :
    (t.putAll dir contents).directories = t.directories := by
  induction contents generalizing t with
  | nil => rfl
  | cons c contents ih => exact ih

/-- **A file holds what was written to it last.** -/
theorem lookup_putAll (dir : Path) {contents : List (String × String)} {name : String}
    (hname : name ≠ "..") (hcontents : ∀ c ∈ contents, c.1 ≠ "..") :
    (t.putAll dir contents).files.lookup (dir.child name).place =
      (contents.reverse.lookup name).or (t.files.lookup (dir.child name).place) := by
  induction contents using List.reverseRecOn with
  | nil => rfl
  | append_singleton contents c ih =>
    obtain ⟨last, content⟩ := c
    have hplace : (dir.child name).place = (dir.child last).place ↔ name = last := by
      rw [Path.place_child _ hname, Path.place_child _ (hcontents (last, content) (by simp))]
      simp
    have hlast : t.putAll dir (contents ++ [(last, content)]) =
        (t.putAll dir contents).put (dir.child last) content := putAll_append ..
    rw [hlast, lookup_put, ih fun c hc => hcontents c (by simp [hc]), List.reverse_concat,
      lookup_cons]
    by_cases h : name = last
    · rw [if_pos (hplace.2 h), if_pos h]
      rfl
    · rw [if_neg (hplace.not.2 h), if_neg h]

end FileTree

end RelayLadder
