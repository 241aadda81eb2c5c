import EthPayServer.Lib.Hex

/-!
# Comma-separated values

A reader of RFC 4180 files.  A record is ended by a carriage return and a line
feed or by the end of the file, and has one field more than it has commas
outside quotes; between quotes a quote is written twice.
-/

namespace EthPayServer.Lib.Csv

/-- Where the reader is. -/
inductive Mode where
  | start
  | plain
  | quoted
  /-- behind a quote that ends the field, unless another follows -/
  | closed
  /-- behind the carriage return of a record -/
  | returned
deriving DecidableEq

/-- The records of a text: `field` is what was read of a field, `fields` are those before it. -/
def read (mode : Mode) (field : Text) (fields : List Text) : Text → Option (List (List Text))
  | [] =>
    match mode, fields with
    | .start, [] => some []
    | .quoted, _ => none
    | .returned, _ => none
    | _, _ => some [fields ++ [field]]
  | c :: rest =>
    if mode = .quoted then
      if c = '"' then read .closed field fields rest else read .quoted (field ++ [c]) fields rest
    else if mode = .returned then
      if c = '\n' then (read .start [] [] rest).map (fields :: ·) else none
    else if c = ',' then read .start [] (fields ++ [field]) rest
    else if c = '\r' then read .returned [] (fields ++ [field]) rest
    else if c = '"' then
      if mode = .start then read .quoted field fields rest
      else if mode = .closed then read .quoted (field ++ [c]) fields rest
      else none
    else if mode = .closed ∨ c = '\n' then none
    else read .plain (field ++ [c]) fields rest

variable (field : Text) (fields : List Text) (rest : Text)

/-- Between quotes the reader takes every character, and a quote for two. -/
theorem read_quoted (text : Text) :
    read .quoted field fields (text.flatMap (fun c => if c = '"' then [c, c] else [c]) ++ '"' :: rest) =
      read .closed (field ++ text) fields rest := by
  induction text generalizing field with
  | nil => simp [read]
  | cons c text ih =>
    by_cases quote : c = '"'
    · simp [quote, read, ih]
    · simp [quote, read, ih]

theorem read_plain {text : Text}
    (plain : ∀ c ∈ text, c ≠ ',' ∧ c ≠ '"' ∧ c ≠ '\n' ∧ c ≠ '\r') :
    read .plain field fields (text ++ rest) = read .plain (field ++ text) fields rest := by
  induction text generalizing field with
  | nil => simp
  | cons c text ih =>
    obtain ⟨noComma, noQuote, noFeed, noReturn⟩ := plain c List.mem_cons_self
    have next := ih (field ++ [c]) fun d mem => plain d (List.mem_cons_of_mem c mem)
    simpa [read, noComma, noQuote, noFeed, noReturn] using next

end EthPayServer.Lib.Csv
