import Mathlib
import Precinct.Json.Printer
import Precinct.Json.Reader

/-!
# Numbers and texts, written and read

* `natural?_toDigits`  the digits of a number have its value;
* `number?_toString`   a whole number is read as it was written;
* `Ends`               what may follow a number, for it goes on as long as there are characters for it;
* `readPlain_append`   a number, `true`, `false` or `null`, read from the front of a text;
* `pieceOf`            the part of a text that a character is written as;
* `readText_append`    **a text** is read as it was written, whatever its characters are.

Of the controls without a short escape each is written by its number, which is below that of any half of
a pair, so it is never taken for one.
-/

namespace Precinct.Json
open Data (Value)

/-! ## digits -/

theorem toNat_of_isDigit {c : Char} (h : c.isDigit = true) : 48 ≤ c.toNat ∧ c.toNat ≤ 57 := by
  simp only [Char.isDigit, Bool.and_eq_true, decide_eq_true_eq, ge_iff_le,
    UInt32.le_iff_toNat_le] at h
  exact h

theorem digit?_of_isDigit {c : Char} (h : c.isDigit = true) :
    Text.digit? 10 c = some (c.toNat - '0'.toNat) := by
  obtain ⟨hlo, hhi⟩ := toNat_of_isDigit h
  have hvalue : Text.digitValue c = c.toNat - '0'.toNat := if_pos h
  have hzero : '0'.toNat = 48 := rfl
  rw [Text.digit?, hvalue, if_pos (by omega)]

theorem mapM_digit? {cs : List Char} (h : ∀ c ∈ cs, c.isDigit = true) :
    cs.mapM (Text.digit? 10) = some (cs.map fun c => c.toNat - '0'.toNat) := by
  induction cs with
  | nil => rfl
  | cons c cs ih =>
    obtain ⟨hc, hcs⟩ := List.forall_mem_cons.mp h
    rw [List.mapM_cons, digit?_of_isDigit hc, ih hcs]
    rfl

theorem isDigit_of_mem_toDigits {n : ℕ} {c : Char} (h : c ∈ Nat.toDigits 10 n) : c.isDigit = true :=
  Nat.isDigit_of_mem_toDigits (by decide) (by decide) h

theorem natural?_toDigits (n : ℕ) : Text.natural? (Nat.toDigits 10 n) = some n := by
  have hempty : (Nat.toDigits 10 n).isEmpty = false :=
    List.isEmpty_eq_false_iff.mpr Nat.toDigits_ne_nil
  have hvalue : Text.ofDigits 10 ((Nat.toDigits 10 n).map fun c => c.toNat - '0'.toNat) = n := by
    rw [Text.ofDigits, List.foldl_map]
    exact Nat.ofDigitChars_toDigits (by decide) (by decide)
  rw [Text.natural?, hempty, if_neg Bool.false_ne_true, mapM_digit? fun c => isDigit_of_mem_toDigits,
    Option.map_some, hvalue]

/-- only zero is written with a zero first -/
theorem toDigits_head {n : ℕ} (h : n ≠ 0) :
    ∃ c cs, Nat.toDigits 10 n = c :: cs ∧ c ≠ '0' := by
  induction n using Nat.strong_induction_on with
  | h n ih =>
    rw [Nat.toDigits_eq_if (by decide)]
    by_cases hsmall : n < 10
    · have hall : ∀ n < 10, n ≠ 0 → n.digitChar ≠ '0' := by decide
      exact ⟨n.digitChar, [], if_pos hsmall, hall n hsmall h⟩
    · obtain ⟨c, cs, hdigits, hc⟩ := ih (n / 10) (by omega) (by omega)
      rw [if_neg hsmall, hdigits]
      exact ⟨c, _, rfl, hc⟩

theorem isIntegerPart_toDigits (n : ℕ) : isIntegerPart (Nat.toDigits 10 n) = true := by
  by_cases h : n = 0
  · subst h
    rfl
  · obtain ⟨c, cs, hdigits, hc⟩ := toDigits_head h
    rw [hdigits]
    unfold isIntegerPart
    split
    · rename_i heq
      cases heq
    · rfl
    · rename_i heq
      cases heq
      exact bne_iff_ne.mpr hc

/-! ## whole numbers -/

theorem takeWhile_toDigits (n : ℕ) :
    (Nat.toDigits 10 n).takeWhile Char.isDigit = Nat.toDigits 10 n ∧
      (Nat.toDigits 10 n).dropWhile Char.isDigit = [] :=
  ⟨List.takeWhile_eq_self_iff.mpr fun _ => isDigit_of_mem_toDigits,
    List.dropWhile_eq_nil_iff.mpr fun _ => isDigit_of_mem_toDigits⟩

theorem number?_toDigits (n : ℕ) : number? (Nat.toDigits 10 n) = some (.whole n) := by
  have hhead : ((Nat.toDigits 10 n).head? == some '-') = false := by
    rw [beq_eq_false_iff_ne]
    intro h
    exact absurd (isDigit_of_mem_toDigits (List.mem_of_mem_head? h)) (by decide)
  obtain ⟨htake, hdrop⟩ := takeWhile_toDigits n
  simp only [number?, hhead, Bool.false_eq_true, if_false, htake, hdrop, isIntegerPart_toDigits,
    Bool.not_true, List.isEmpty_nil, Bool.false_and, Bool.not_false, Bool.and_self, if_true,
    natural?_toDigits]
  rfl

theorem number?_minus {n : ℕ} (h : n ≠ 0) :
    number? ('-' :: Nat.toDigits 10 n) = some (.whole (-(n : ℤ))) := by
  obtain ⟨htake, hdrop⟩ := takeWhile_toDigits n
  have hzero : (Nat.toDigits 10 n == ['0']) = false := by
    obtain ⟨c, cs, hdigits, hc⟩ := toDigits_head h
    rw [hdigits, beq_eq_false_iff_ne]
    intro he
    exact hc (List.cons.inj he).1
  simp only [number?, List.head?_cons, beq_self_eq_true, if_true, List.tail_cons, htake, hdrop,
    isIntegerPart_toDigits, Bool.not_true, Bool.false_eq_true, if_false, List.isEmpty_nil, hzero,
    Bool.and_false, Bool.not_false, Bool.and_self, natural?_toDigits]
  rfl

/-- how a whole number is written -/
theorem toList_toString (n : ℤ) : (toString n).toList =
    if 0 ≤ n then Nat.toDigits 10 n.toNat else '-' :: Nat.toDigits 10 (-n).toNat := by
  show n.repr.toList = _
  rw [Int.repr_eq_if]
  split
  · rw [Nat.repr_eq_ofList_toDigits, String.toList_ofList]
  · rw [String.toList_append, Nat.repr_eq_ofList_toDigits, String.toList_ofList, String.toList_ofList]
    rfl

theorem number?_toString (n : ℤ) : number? (toString n).toList = some (.whole n) := by
  rw [toList_toString]
  split
  · rename_i h
    rw [number?_toDigits, Int.toNat_of_nonneg h]
  · rw [number?_minus (by omega), Int.toNat_of_nonneg (by omega), Int.neg_neg]

/-! ## plain values -/

/-- a character that a number may go on with, or `true`, `false` or `null` -/
def isPlainChar (c : Char) : Bool := c.isAlphanum || c == '+' || c == '-' || c == '.'

/-- what may follow a number -/
def Ends (rest : List Char) : Prop := ∀ c ∈ rest.head?, isPlainChar c = false

theorem ends_nil : Ends [] := nofun

theorem ends_cons {c : Char} {rest : List Char} (h : isPlainChar c = false) : Ends (c :: rest) := by
  rintro _ ⟨⟩
  exact h

/-- a value is read as far as its characters go -/
theorem readPlain_append {cs rest : List Char} (h : ∀ c ∈ cs, isPlainChar c = true)
    (hrest : Ends rest) : readPlain (cs ++ rest) = (plain? cs).map fun v => (v, rest) := by
  have hends : rest.takeWhile isPlainChar = [] ∧ rest.dropWhile isPlainChar = rest := by
    cases rest with
    | nil => exact ⟨rfl, rfl⟩
    | cons c rest =>
      have hc := hrest c rfl
      exact ⟨by rw [List.takeWhile_cons, hc]; rfl, by rw [List.dropWhile_cons, hc]; rfl⟩
  show (plain? ((cs ++ rest).takeWhile isPlainChar)).map
    (fun v => (v, (cs ++ rest).dropWhile isPlainChar)) = _
  rw [List.takeWhile_append_of_pos h, List.dropWhile_append_of_pos h, hends.1, hends.2,
    List.append_nil]

theorem isPlainChar_of_isDigit {c : Char} (h : c.isDigit = true) : isPlainChar c = true := by
  simp only [isPlainChar, Char.isAlphanum, h, Bool.or_true, Bool.true_or]

theorem isPlainChar_toString (n : ℤ) : ∀ c ∈ (toString n).toList, isPlainChar c = true := by
  rw [toList_toString]
  split
  · exact fun c hc => isPlainChar_of_isDigit (isDigit_of_mem_toDigits hc)
  · refine List.forall_mem_cons.mpr ⟨rfl, fun c hc => ?_⟩
    exact isPlainChar_of_isDigit (isDigit_of_mem_toDigits hc)

/-- a number is not taken for a word -/
theorem plain?_of_number? {cs : List Char} {v : Value} (h : number? cs = some v) :
    plain? cs = some v := by
  have hword : ∀ {word : List Char}, number? word = none → cs ≠ word := by
    rintro word hnone rfl
    rw [hnone] at h
    cases h
  rw [plain?, if_neg (hword rfl), if_neg (hword rfl), if_neg (hword rfl), h]

/-! ## texts -/

/-- the part of a text that a character is written as -/
def pieceOf (c : Char) : Piece :=
  if c < ' ' ∧ c ∉ ['\x08', '\x0c', '\n', '\r', '\t'] then .unit c.toNat else .char c

theorem coded?_control : ∀ n < 32,
    Text.coded? 4 ('0' :: '0' :: Text.twoDigits Text.lowerDigits n) = some n := by decide

/-- **A character** is read as the part that it was written as. -/
theorem readPieces_escape (c : Char) (before : List Piece) (cs : List Char) :
    readPieces before (escape c ++ cs) = readPieces (pieceOf c :: before) cs := by
  by_cases hplain : c = '"' ∨ c = '\\' ∨ c ∈ ['\x08', '\x0c', '\n', '\r', '\t']
  · simp only [List.mem_cons, List.not_mem_nil, or_false] at hplain
    rcases hplain with rfl | rfl | rfl | rfl | rfl | rfl | rfl <;> rfl
  · obtain ⟨hquote, hbackslash, hshort⟩ := not_or.mp hplain |>.imp_right not_or.mp
    have hmem := hshort
    simp only [List.mem_cons, List.not_mem_nil, or_false, not_or] at hshort
    obtain ⟨h8, h12, h10, h13, h9⟩ := hshort
    rw [escape, if_neg hquote, if_neg hbackslash, if_neg h8, if_neg h12, if_neg h10, if_neg h13,
      if_neg h9]
    by_cases hcontrol : c < ' '
    · have hlt : c.toNat < 32 := hcontrol
      rw [if_pos hcontrol, pieceOf, if_pos ⟨hcontrol, hmem⟩]
      show readPieces before ('\\' :: 'u' :: '0' :: '0' :: Text.lowerDigits.getD (c.toNat / 16) '0' ::
        Text.lowerDigits.getD (c.toNat % 16) '0' :: cs) = _
      have hcoded := coded?_control c.toNat hlt
      rw [Text.twoDigits] at hcoded
      rw [readPieces, hcoded]
    · rw [if_neg hcontrol, pieceOf, if_neg fun h => hcontrol h.1, List.singleton_append]
      rw [readPieces.eq_def before (c :: cs)]
      split
      · rename_i heq
        cases heq
      · rename_i heq
        cases heq
        exact absurd rfl hquote
      · rename_i heq
        cases heq
        exact absurd rfl hbackslash
      · rename_i heq
        cases heq
        exact absurd rfl hbackslash
      · rename_i heq
        cases heq
        rw [if_neg hcontrol]

theorem readPieces_flatMap (cs : List Char) (before : List Piece) (rest : List Char) :
    readPieces before (cs.flatMap escape ++ '"' :: rest) =
      some (before.reverse ++ cs.map pieceOf, rest) := by
  induction cs generalizing before with
  | nil => rw [List.map_nil, List.append_nil]; rfl
  | cons c cs ih =>
    rw [List.flatMap_cons, List.append_assoc, readPieces_escape, ih, List.reverse_cons,
      List.append_assoc]
    rfl

/-- a number below those of the halves of pairs is that of a character -/
theorem unescape_unit {n : ℕ} (h : n < 0xD800) (before : List Char) (rest : List Piece) :
    unescape before (.unit n :: rest) = unescape (Char.ofNat n :: before) rest := by
  have hhigh : isHighHalf n = false := by
    simp only [isHighHalf, Bool.and_eq_false_iff, decide_eq_false_iff_not]
    omega
  have hlow : isLowHalf n = false := by
    simp only [isLowHalf, Bool.and_eq_false_iff, decide_eq_false_iff_not]
    omega
  rcases rest with _ | ⟨piece | m, rest⟩ <;> simp [unescape, hhigh, hlow]

theorem unescape_map (cs before : List Char) :
    unescape before (cs.map pieceOf) = some (before.reverse ++ cs) := by
  induction cs generalizing before with
  | nil => rw [List.append_nil]; rfl
  | cons c cs ih =>
    have hstep : unescape before (pieceOf c :: cs.map pieceOf) =
        unescape (c :: before) (cs.map pieceOf) := by
      unfold pieceOf
      split
      · rename_i hcontrol
        have hlt : c.toNat < 32 := hcontrol.1
        rw [unescape_unit (by omega), Char.ofNat_toNat]
      · rfl
    rw [List.map_cons, hstep, ih, List.reverse_cons, List.append_assoc]
    rfl

/-- **A text is read as it was written.** -/
theorem readText_append (s : String) (rest : List Char) :
    readText (s.toList.flatMap escape ++ '"' :: rest) = some (s, rest) := by
  rw [readText, readPieces_flatMap]
  show (unescape [] (s.toList.map pieceOf)).bind (fun cs => some (String.ofList cs, rest)) = _
  rw [unescape_map]
  show some (String.ofList s.toList, rest) = _
  rw [String.ofList_toList]

end Precinct.Json
