/-
  What stands around the part of a text that is read.

  A text is its body with blanks in front of it, and with blanks, or a semicolon among blanks,
  behind it (`exists_eq_append_body`).  Conversely, whatever has such surroundings is read as its
  trim, if it does not bring a semicolon of its own to the end (`body_surrounded`).
-/
import RelayLadder.Proofs.Lexing

namespace RelayLadder.RungText

open Text

/-- What may stand behind the body of a text: blanks, or a semicolon among blanks. -/
inductive Trailing (body : List Char) : List Char → Prop
  /-- Blanks do not count, but the last semicolon before them would not belong to the body. -/
  | blanks {blanks : List Char} : blanks.all isBlank = true → body.getLast? ≠ some ';' →
      Trailing body blanks
  | semicolon {blanks after : List Char} : blanks.all isBlank = true → after.all isBlank = true →
      Trailing body (blanks ++ ';' :: after)

/-- The body of a text neither starts nor ends with a blank. -/
theorem isBlank_of_mem_ends_body (cs : List Char) :
    (∀ c ∈ (body cs).head?, isBlank c = false) ∧ ∀ c ∈ (body cs).getLast?, isBlank c = false := by
  simp only [body]
  split
  · refine ⟨fun c hc => head?_trim cs c ?_,
      trimRight_eq_self_iff.1 (List.rdropWhile_idempotent isBlank (trim cs).dropLast)⟩
    have hright := trimRight_prefix (trim cs).dropLast
    have hlast := List.dropLast_prefix (trim cs)
    obtain ⟨rest, hrest⟩ := hright.trans hlast
    rw [← hrest]
    exact List.mem_head?_append_of_mem_head? hc
  · exact ⟨head?_trim cs, getLast?_trim cs⟩

/-- **A text is its body with surroundings that do not count.** -/
theorem exists_eq_append_body (cs : List Char) :
    ∃ lead tail, cs = lead ++ body cs ++ tail ∧ lead.all isBlank = true ∧
      Trailing (body cs) tail ∧ (body cs ≠ [] → bodyStart cs = lead.length) := by
  obtain ⟨after, hafter, hblank⟩ := exists_eq_trimRight_append (trimLeft cs)
  have hcs : cs = cs.takeWhile isBlank ++ (trim cs ++ after) := by
    rw [trim, ← hafter, trimLeft, List.takeWhile_append_dropWhile]
  have hstart : body cs ≠ [] → bodyStart cs = (cs.takeWhile isBlank).length := by
    intro hne
    rw [bodyStart, if_neg (by simpa using hne)]
  by_cases hsemi : (trim cs).getLast? = some ';'
  · obtain ⟨blanks, hblanks, hblank'⟩ := exists_eq_trimRight_append (trim cs).dropLast
    have hbody : body cs = trimRight (trim cs).dropLast := by simp only [body, if_pos hsemi]
    have htrim : trim cs = body cs ++ blanks ++ [';'] := by
      rw [hbody, ← hblanks]
      exact (List.dropLast_append_getLast? ';' hsemi).symm
    refine ⟨cs.takeWhile isBlank, blanks ++ ';' :: after, ?_, List.all_takeWhile,
      .semicolon hblank' hblank, hstart⟩
    conv_lhs => rw [hcs, htrim]
    simp
  · have hbody : body cs = trim cs := by simp only [body, if_neg hsemi]
    refine ⟨cs.takeWhile isBlank, after, ?_, List.all_takeWhile, .blanks hblank ?_, hstart⟩
    · conv_lhs => rw [hcs]
      rw [hbody, List.append_assoc]
    · rwa [hbody]

/-- A semicolon at the end ends the trimming there. -/
theorem trim_concat_semicolon (cs : List Char) : trim (cs ++ [';']) = trimLeft cs ++ [';'] := by
  have hright : trimRight [';'] ≠ [] := by decide
  have hleft : trimLeft (cs ++ [';']) = trimLeft cs ++ [';'] := by
    rw [trimLeft_append]
    split
    · rename_i hcs
      rw [hcs]
      decide
    · rfl
  rw [trim, hleft, trimRight_append, if_neg hright]
  rfl

/-- **What has such surroundings is read as its trim.** -/
theorem body_surrounded {lead cs tail : List Char} (hlead : lead.all isBlank = true)
    (htail : Trailing (trim cs) tail) : body (lead ++ cs ++ tail) = trim cs := by
  cases htail with
  | blanks hblank hsemi =>
    have htrim : trim (lead ++ cs ++ tail) = trim cs := by
      rw [trim_append_blanks _ hblank, trim_blanks_append hlead]
    simp only [body, htrim, if_neg hsemi]
  | @semicolon blanks after hblank hafter =>
    have htrim : trim (lead ++ cs ++ (blanks ++ ';' :: after)) =
        trimLeft (cs ++ blanks) ++ [';'] := by
      have hsplit : lead ++ cs ++ (blanks ++ ';' :: after) =
          lead ++ (cs ++ blanks ++ [';'] ++ after) := by simp
      rw [hsplit, trim_blanks_append hlead, trim_append_blanks _ hafter, trim_concat_semicolon]
    simp only [body, htrim, List.getLast?_concat, if_true, List.dropLast_concat]
    exact trim_append_blanks cs hblank

/-- Blanks in front of a text without blanks at its ends do not count, but for the positions. -/
theorem body_blanks_append {lead cs : List Char} (hlead : lead.all isBlank = true) (hne : cs ≠ [])
    (hh : ∀ c ∈ cs.head?, isBlank c = false)
    (hl : ∀ c ∈ cs.getLast?, isBlank c = false ∧ c ≠ ';') :
    body (lead ++ cs) = cs ∧ bodyStart (lead ++ cs) = lead.length := by
  have htrim : trim cs = cs := trim_eq_self hh fun c hc => (hl c hc).1
  have hbody : body (lead ++ cs) = cs := by
    have htail : Trailing (trim cs) [] := .blanks rfl fun h => (hl ';' (htrim ▸ h)).2 rfl
    have hsurrounded := body_surrounded hlead htail
    rwa [List.append_nil, htrim] at hsurrounded
  refine ⟨hbody, ?_⟩
  rw [bodyStart, hbody, if_neg (by simpa using hne), takeWhile_append_of_head hlead hh]

end RelayLadder.RungText
