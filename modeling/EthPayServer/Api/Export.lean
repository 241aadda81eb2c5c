import EthPayServer.Lib.Csv

/-!
# The CSV export
-/

namespace EthPayServer.Api

open Lib

/-! ## Fields and rows -/

/-- `csv_escape_field` -/
def csvEscapeField (field : Text) : Text :=
  if ',' ∈ field ∨ '"' ∈ field ∨ '\n' ∈ field ∨ '\r' ∈ field then
    '"' :: field.flatMap (fun ch => if ch = '"' then [ch, ch] else [ch]) ++ ['"']
  else field

/-- `csv_row`: a comma before every field but the first. -/
def csvRow : List Text → Text
  | [] => ['\r', '\n']
  | field :: fields =>
    csvEscapeField field ++ fields.flatMap (fun field => ',' :: csvEscapeField field) ++ ['\r', '\n']

/-- A field is read back, whatever follows it. -/
theorem read_csvEscapeField (field : Text) (fields : List Text) : ∃ mode, mode ≠ .quoted ∧ mode ≠ .returned ∧
    ∀ rest, Csv.read .start [] fields (csvEscapeField field ++ rest) = Csv.read mode field fields rest := by
  unfold csvEscapeField
  split
  · refine ⟨.closed, by decide, by decide, fun rest => ?_⟩
    have quoted := Csv.read_quoted [] fields rest field
    simpa [Csv.read] using quoted
  next special =>
    cases field with
    | nil => exact ⟨.start, by decide, by decide, fun rest => rfl⟩
    | cons c text =>
      have plain : ∀ d ∈ c :: text, d ≠ ',' ∧ d ≠ '"' ∧ d ≠ '\n' ∧ d ≠ '\r' := by
        rintro d mem
        refine ⟨?_, ?_, ?_, ?_⟩ <;>
        · rintro rfl
          simp [mem] at special
      refine ⟨.plain, by decide, by decide, fun rest => ?_⟩
      obtain ⟨noComma, noQuote, noFeed, noReturn⟩ := plain c List.mem_cons_self
      have next := Csv.read_plain [c] fields rest fun d mem => plain d (List.mem_cons_of_mem c mem)
      simpa [Csv.read, noComma, noQuote, noFeed, noReturn] using next

/-- The rest of a row is read behind its first fields, up to the next row. -/
theorem read_row (field : Text) (fields before : List Text) (rest : Text) :
    Csv.read .start [] before (csvRow (field :: fields) ++ rest) =
      (Csv.read .start [] [] rest).map ((before ++ field :: fields) :: ·) := by
  induction fields generalizing field before with
  | nil =>
    obtain ⟨mode, notQuoted, notReturned, reads⟩ := read_csvEscapeField field before
    simp [csvRow, reads, Csv.read, notQuoted, notReturned]
  | cons next fields ih =>
    obtain ⟨mode, notQuoted, notReturned, reads⟩ := read_csvEscapeField field before
    have tail := ih next (before ++ [field])
    simp only [csvRow, List.append_assoc, List.flatMap_cons, List.cons_append] at tail ⊢
    rw [reads, Csv.read, if_neg notQuoted, if_neg notReturned, if_pos rfl, tail]
    rfl

/-- An RFC 4180 reader gives back the rows of an export. -/
theorem csv_parses_back (rows : List (List Text)) (fielded : ∀ row ∈ rows, row ≠ []) :
    Csv.read .start [] [] (rows.flatMap csvRow) = some rows := by
  induction rows with
  | nil => rfl
  | cons row rows ih =>
    cases row with
    | nil => exact absurd rfl (fielded [] List.mem_cons_self)
    | cons field fields =>
      rw [List.flatMap_cons, read_row, ih fun row mem => fielded row (List.mem_cons_of_mem _ mem)]
      rfl

theorem quoted_rows_parse_back :
    Csv.read .start [] [] (([["a,b".toList, []], ["say \"hi\"\r\n".toList]]).flatMap csvRow) =
      some [["a,b".toList, []], ["say \"hi\"\r\n".toList]] :=
  csv_parses_back _ (by decide)

end EthPayServer.Api
