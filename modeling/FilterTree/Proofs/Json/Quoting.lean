import FilterTree.Json.Reader
import FilterTree.Json.Writer
import Mathlib.Data.Option.Basic

namespace FilterTree.Json

/-- The unit stands for the character: it is the character itself, or the code of a control. -/
def Piece.Denotes (c : Char) : Piece → Prop
  | .char d => d = c
  | .unit n => n = c.toNat ∧ n < 32

/-- What is scanned, with one unit more in front. -/
def Piece.push (piece : Piece) (scanned : List Piece × List Char) : List Piece × List Char :=
  (piece :: scanned.1, scanned.2)

section
variable (rest : List Char)

theorem scanText_short {e c : Char} (h : shortEscape? e = some c) :
    scanText ('\\' :: e :: rest) = (scanText rest).map (Piece.push (.char c)) := by
  have other : e ≠ 'u' := by rintro rfl; cases h
  rw [scanText, h]
  · cases scanText rest <;> rfl
  · exact fun _ _ _ _ _ unit _ => other unit

theorem scanText_unit {n : Nat} {a b c d : Char} (h : unit? a b c d = some n) :
    scanText ('\\' :: 'u' :: a :: b :: c :: d :: rest) =
      (scanText rest).map (Piece.push (.unit n)) := by
  rw [scanText]
  cases scanText rest <;> simp [h, Piece.push]

theorem scanText_char {c : Char} (quote : c ≠ '"') (stroke : c ≠ '\\') (shown : 32 ≤ c.toNat) :
    scanText (c :: rest) = (scanText rest).map (Piece.push (.char c)) := by
  have passes : (guard (c ≠ '\\' ∧ 32 ≤ c.toNat) : Option Unit) = some () :=
    if_pos ⟨stroke, shown⟩
  rw [scanText, passes]
  · cases scanText rest <;> rfl
  · exact quote
  · exact fun _ _ _ _ _ escape _ => stroke escape
  · exact fun _ _ escape _ => stroke escape

end

theorem hexValue?_hexDigit : ∀ n < 16, hexValue? (hexDigit n) = some n := by decide

/-- A written character is scanned as one unit, which stands for it. -/
theorem scanText_escape (c : Char) (rest : List Char) :
    ∃ piece, Piece.Denotes c piece ∧
      scanText (escape c ++ rest) = (scanText rest).map (Piece.push piece) := by
  have short {e : Char} (h : shortEscape? e = some c) : ∃ piece, Piece.Denotes c piece ∧
      scanText (['\\', e] ++ rest) = (scanText rest).map (Piece.push piece) :=
    ⟨.char c, rfl, scanText_short rest h⟩
  unfold escape
  split
  · rename_i h; exact short (by rw [h]; rfl)
  split
  · rename_i h; exact short (by rw [h]; rfl)
  split
  · rename_i h; exact short (by rw [h]; rfl)
  split
  · rename_i h; exact short (by rw [h]; rfl)
  split
  · rename_i h; exact short (by rw [h]; rfl)
  split
  · rename_i h; exact short (by rw [h]; rfl)
  split
  · rename_i h; exact short (by rw [h]; rfl)
  split
  · rename_i control
    have code : unit? '0' '0' (hexDigit (c.toNat / 16)) (hexDigit (c.toNat % 16)) =
        some c.toNat := by
      have zero : hexValue? '0' = some 0 := rfl
      simp only [unit?, zero, hexValue?_hexDigit (c.toNat / 16) (by omega),
        hexValue?_hexDigit (c.toNat % 16) (by omega)]
      simp only [bind, Option.bind, pure, Option.some_inj]
      omega
    exact ⟨.unit c.toNat, ⟨rfl, control⟩, scanText_unit rest code⟩
  · rename_i quote stroke _ _ _ _ _ shown
    exact ⟨.char c, rfl, scanText_char rest quote stroke (Nat.le_of_not_lt shown)⟩

/-- A unit that stands for a character is put together as that character. -/
theorem assemble_cons {c : Char} {piece : Piece} (h : piece.Denotes c) (pieces : List Piece) :
    assemble (piece :: pieces) = (assemble pieces).map (c :: ·) := by
  cases piece with
  | char d => cases h; rfl
  | unit n =>
    obtain ⟨rfl, control⟩ := h
    have high : isHighSurrogate c.toNat = false := by
      simp only [isHighSurrogate, Bool.and_eq_false_iff, decide_eq_false_iff_not]; omega
    have low : isLowSurrogate c.toNat = false := by
      simp only [isLowSurrogate, Bool.and_eq_false_iff, decide_eq_false_iff_not]; omega
    have code : Char.ofNat c.toNat = c := Char.ofNat_toNat c
    cases pieces with
    | nil => simp [assemble, high, low, code]
    | cons next rest => cases next <;> simp [assemble, high, low, code]

/-- A written text is read back, up to its closing quote. -/
theorem readText_escape (cs rest : List Char) :
    readText (cs.flatMap escape ++ '"' :: rest) = some (some (String.ofList cs), rest) := by
  have scanned : ∃ pieces, scanText (cs.flatMap escape ++ '"' :: rest) = some (pieces, rest) ∧
      assemble pieces = some cs := by
    induction cs with
    | nil => exact ⟨[], rfl, rfl⟩
    | cons c cs ih =>
      obtain ⟨pieces, scan, whole⟩ := ih
      obtain ⟨piece, denotes, first⟩ := scanText_escape c (cs.flatMap escape ++ '"' :: rest)
      refine ⟨piece :: pieces, ?_, by rw [assemble_cons denotes, whole, Option.map_some]⟩
      rw [List.flatMap_cons, List.append_assoc, first, scan]
      rfl
  obtain ⟨pieces, scan, whole⟩ := scanned
  simp only [readText, scan, whole, Option.map_some]

end FilterTree.Json
