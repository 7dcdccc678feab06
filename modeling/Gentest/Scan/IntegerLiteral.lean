import Gentest.Lib.CppInteger
import Gentest.Lib.LongLong
import Gentest.Scan.Directives
import Mathlib.Data.Bool.AllAny

/-!
# Integer literals in conditions

`parse_scan_integer_literal` drops the separators, finds the base, takes the digits in
front and checks the suffix. Of a hexadecimal literal it takes the letters only.
-/

namespace Gentest.Scan

open Gentest.Codegen (isSpace)
open LongLong (Fault checked InRange)

-- ---------------------------------------------------------------------------
-- The parser
-- ---------------------------------------------------------------------------

def radixOf : List Char → Nat × List Char
  | '0' :: 'x' :: ch :: text => (16, ch :: text)
  | '0' :: 'X' :: ch :: text => (16, ch :: text)
  | '0' :: 'b' :: ch :: text => (2, ch :: text)
  | '0' :: 'B' :: ch :: text => (2, ch :: text)
  | '0' :: ch :: text => (8, '0' :: ch :: text)
  | text => (10, text)

/-- `is_digit` of the loop over the digits. -/
def isLiteralDigit (base : Nat) (ch : Char) : Bool :=
  (base ≤ 10 && '0'.toNat ≤ ch.toNat && ch.toNat ≤ '0'.toNat + (base - 1)) ||
    (base == 16 && 'a'.toNat ≤ ch.toNat && ch.toNat ≤ 'f'.toNat) ||
    (base == 16 && 'A'.toNat ≤ ch.toNat && ch.toNat ≤ 'F'.toNat)

def isValidSuffix (suffix : List Char) : Bool :=
  ["", "u", "l", "ll", "ul", "ull", "lu", "llu"].any fun valid => suffix.map Char.toLower == valid.toList

def accumulateDigit (base : Nat) (value : Int) (ch : Char) : Except Fault Int :=
  let digit : Option Nat :=
    if '0'.toNat ≤ ch.toNat ∧ ch.toNat ≤ '9'.toNat then some (ch.toNat - '0'.toNat)
    else if base = 16 ∧ 'a'.toNat ≤ ch.toNat ∧ ch.toNat ≤ 'f'.toNat then some (10 + (ch.toNat - 'a'.toNat))
    else if base = 16 ∧ 'A'.toNat ≤ ch.toNat ∧ ch.toNat ≤ 'F'.toNat then some (10 + (ch.toNat - 'A'.toNat))
    else none
  match digit with
  | none => .error .unknown
  | some digit =>
    if base ≤ digit then .error .unknown
    else do
      let product ← LongLong.mul value base
      LongLong.add product digit

def parseUnsignedLiteral (sign : Int) (text : List Char) : Except Fault Int :=
  if text.isEmpty then .error .unknown
  else
    let (base, text) := radixOf text
    let digits := text.takeWhile (isLiteralDigit base)
    if digits.isEmpty || !isValidSuffix (text.dropWhile (isLiteralDigit base)) then .error .unknown
    else do
      let value ← digits.foldlM (accumulateDigit base) 0
      LongLong.mul sign value

/-- Without a character `text.front()` is undefined. -/
def parseScanIntegerLiteral (text : List Char) : Except Fault Int :=
  let text := trimAsciiView text
  if text.isEmpty then .error .unknown
  else
    match text.filter (· ≠ '\'') with
    | [] => .error .undefined
    | '+' :: text => parseUnsignedLiteral 1 (trimAsciiView text)
    | '-' :: text => parseUnsignedLiteral (-1) (trimAsciiView text)
    | text => parseUnsignedLiteral 1 (trimAsciiView text)

-- ---------------------------------------------------------------------------
-- The digits
-- ---------------------------------------------------------------------------

section

open CppLiteral (Radix IntegerLiteral digit? number isDigit)

variable {radix : Radix} {text digits suffix : List Char} {ch : Char} {base n : Nat}

theorem isLiteralDigit_iff (hbase : 0 < base) :
    isLiteralDigit base ch = true ↔
      (base ≤ 10 ∧ 48 ≤ ch.toNat ∧ ch.toNat < 48 + base) ∨ (base = 16 ∧ 97 ≤ ch.toNat ∧ ch.toNat ≤ 102) ∨
        (base = 16 ∧ 65 ≤ ch.toNat ∧ ch.toNat ≤ 70) := by
  have h0 : '0'.toNat = 48 := rfl
  have ha : 'a'.toNat = 97 := rfl
  have hf : 'f'.toNat = 102 := rfl
  have hA : 'A'.toNat = 65 := rfl
  have hF : 'F'.toNat = 70 := rfl
  simp only [isLiteralDigit, h0, ha, hf, hA, hF, Bool.or_eq_true, Bool.and_eq_true, decide_eq_true_eq, beq_iff_eq]
  omega

theorem isLiteralDigit_of_isDigit (hbase : base ∈ [2, 8, 10, 16]) (h : isDigit base ch = true)
    (hletter : base = 16 → ¬(48 ≤ ch.toNat ∧ ch.toNat ≤ 57)) : isLiteralDigit base ch = true := by
  simp only [List.mem_cons, List.not_mem_nil, or_false] at hbase
  rw [isLiteralDigit_iff (by omega)]
  unfold isDigit digit? at h
  grind

theorem digit?_of_isLiteralDigit (hbase : 0 < base) (h : isLiteralDigit base ch = true) :
    ∃ digit, digit? base ch = some digit ∧ digit < base := by
  have hdigit : (digit? base ch).isSome = true := by
    obtain ⟨hsmall, hlow, hhigh⟩ | ⟨rfl, hlow, hhigh⟩ | ⟨rfl, hlow, hhigh⟩ := (isLiteralDigit_iff hbase).mp h
    all_goals
      unfold digit?
      grind
  obtain ⟨digit, hdigit⟩ := Option.isSome_iff_exists.mp hdigit
  exact ⟨digit, hdigit, CppLiteral.digit?_lt hdigit⟩

theorem accumulateDigit_eq (hbase : 0 < base) (h : isLiteralDigit base ch = true) (value : Int) :
    accumulateDigit base value ch =
      (LongLong.mul value base).bind fun product => LongLong.add product ((digit? base ch).getD 0 : Nat) := by
  obtain ⟨digit, hdigit, hlt⟩ := digit?_of_isLiteralDigit hbase h
  have h0 : '0'.toNat = 48 := rfl
  have h9 : '9'.toNat = 57 := rfl
  have ha : 'a'.toNat = 97 := rfl
  have hf : 'f'.toNat = 102 := rfl
  have hA : 'A'.toNat = 65 := rfl
  have hF : 'F'.toNat = 70 := rfl
  have hloop :
      (if 48 ≤ ch.toNat ∧ ch.toNat ≤ 57 then some (ch.toNat - 48)
        else if base = 16 ∧ 97 ≤ ch.toNat ∧ ch.toNat ≤ 102 then some (10 + (ch.toNat - 97))
        else if base = 16 ∧ 65 ≤ ch.toNat ∧ ch.toNat ≤ 70 then some (10 + (ch.toNat - 65)) else none) = some digit := by
    rw [← hdigit]
    obtain ⟨hsmall, hlow, hhigh⟩ | ⟨rfl, hlow, hhigh⟩ | ⟨rfl, hlow, hhigh⟩ := (isLiteralDigit_iff hbase).mp h
    all_goals
      unfold digit?
      grind
  simp only [accumulateDigit, h0, h9, ha, hf, hA, hF, hloop, hdigit, Option.getD_some, if_neg (Nat.not_le.mpr hlt)]
  rfl

theorem foldlM_accumulateDigit (hbase : 0 < base) (h : ∀ ch ∈ digits, isLiteralDigit base ch = true)
    (value : Nat) (hvalue : InRange value) :
    digits.foldlM (accumulateDigit base) (value : Int) =
      checked (digits.foldl (fun n ch => n * base + (digit? base ch).getD 0) value : Nat) := by
  induction digits generalizing value with
  | nil => exact (LongLong.checked_of_inRange hvalue).symm
  | cons ch digits ih =>
    have hrest := fun c hc => h c (List.mem_cons_of_mem _ hc)
    have hgrows : ∀ (rest : List Char) (n : Nat),
        n ≤ rest.foldl (fun n ch => n * base + (digit? base ch).getD 0) n := by
      intro rest
      induction rest with
      | nil => exact fun n => Nat.le_refl n
      | cons c rest ih =>
        intro n
        exact (Nat.le_mul_of_pos_right n hbase).trans ((Nat.le_add_right _ _).trans (ih _))
    rw [List.foldlM_cons, accumulateDigit_eq hbase (h ch List.mem_cons_self), List.foldl_cons]
    have hlast := hgrows digits (value * base + (digit? base ch).getD 0)
    generalize (digit? base ch).getD 0 = digit at hlast ⊢
    by_cases hnext : InRange (value * base + digit : Nat)
    · have hproduct : InRange ((value : Int) * base) := by
        unfold InRange at hnext ⊢
        push_cast at hnext
        omega
      have hturn : ((LongLong.mul value base).bind fun product => LongLong.add product (digit : Nat)) =
          .ok ((value * base + digit : Nat) : Int) := by
        rw [LongLong.mul, LongLong.checked_of_inRange hproduct, Except.bind, LongLong.add, Nat.cast_add, Nat.cast_mul]
        exact LongLong.checked_of_inRange (by exact_mod_cast hnext)
      rw [hturn]
      exact ih hrest _ hnext
    · have hturn : ((LongLong.mul value base).bind fun product => LongLong.add product (digit : Nat)) =
          .error .undefined := by
        by_cases hproduct : InRange ((value : Int) * base)
        · rw [LongLong.mul, LongLong.checked_of_inRange hproduct, Except.bind, LongLong.add]
          exact if_neg (by exact_mod_cast hnext)
        · rw [LongLong.mul, show checked ((value : Int) * base) = .error .undefined from if_neg hproduct, Except.bind]
      rw [hturn]
      have hout : ¬InRange (digits.foldl (fun n ch => n * base + (digit? base ch).getD 0) (value * base + digit) : Nat) := by
        unfold InRange at hnext ⊢
        omega
      exact (if_neg hout).symm

-- ---------------------------------------------------------------------------
-- What is taken for a literal
-- ---------------------------------------------------------------------------

theorem radix_base_mem (radix : Radix) : radix.base ∈ [2, 8, 10, 16] := by
  cases radix <;> simp [Radix.base]

theorem radix_base_pos (radix : Radix) : 0 < radix.base := by
  cases radix <;> simp [Radix.base]

/-- The parts the parser finds in a text without separators. -/
structure Spelling (text : List Char) (radix : Radix) (digits suffix : List Char) : Prop where
  text : text = radix.lead ++ digits ++ suffix
  first : radix.FirstDigit digits
  some : digits ≠ []
  digits : ∀ ch ∈ digits, isLiteralDigit radix.base ch = true
  suffix : isValidSuffix suffix = true

theorem toLower_cases {lower : Char} (h : ch.toLower = lower) : ch = lower ∨ ch.toNat + 32 = lower.toNat := by
  delta Char.toLower at h
  split at h
  · rename_i hupper
    subst h
    right
    simp only [Char.toNat, UInt32.toNat_add]
    have hle : ch.val.toNat ≤ 90 := UInt32.le_iff_toNat_le.mp hupper.2
    have hdiff : ('a'.val - 'A'.val).toNat = 32 := by decide
    rw [hdiff]
    omega
  · exact .inl h

theorem isValidSuffix_mem (h : isValidSuffix suffix = true) (hmem : ch ∈ suffix) : ch ∈ ['u', 'U', 'l', 'L'] := by
  obtain ⟨valid, hvalid, heq⟩ := List.any_eq_true.mp h
  have hletters : ∀ valid ∈ ["", "u", "l", "ll", "ul", "ull", "lu", "llu"], ∀ lower ∈ valid.toList,
      lower = 'u' ∨ lower = 'l' := by decide
  have hlower : ch.toLower ∈ valid.toList := by
    rw [← eq_of_beq heq]
    exact List.mem_map_of_mem hmem
  have hcode : ∀ code, ch.toNat + 32 = code + 32 → ch = Char.ofNat code := by
    intro code hcode
    rw [← Nat.add_right_cancel hcode, Char.ofNat_toNat]
  rcases hletters valid hvalid _ hlower with hu | hl
  · obtain rfl | hcapital := toLower_cases hu
    · simp
    · simp [hcode 85 hcapital]
  · obtain rfl | hcapital := toLower_cases hl
    · simp
    · simp [hcode 76 hcapital]

theorem span_digits (hdigits : ∀ ch ∈ digits, isLiteralDigit base ch = true) (hbase : base ∈ [2, 8, 10, 16])
    (hsuffix : isValidSuffix suffix = true) :
    (digits ++ suffix).takeWhile (isLiteralDigit base) = digits ∧
      (digits ++ suffix).dropWhile (isLiteralDigit base) = suffix := by
  have hstop : ∀ ch, suffix.head? = some ch → isLiteralDigit base ch = false := by
    intro ch hhead
    have hletters : ∀ base ∈ [2, 8, 10, 16], ∀ ch ∈ ['u', 'U', 'l', 'L'], isLiteralDigit base ch = false := by decide
    exact hletters base hbase ch (isValidSuffix_mem hsuffix (List.mem_of_head? hhead))
  rw [List.takeWhile_append_of_pos hdigits, List.dropWhile_append_of_pos hdigits]
  cases suffix with
  | nil => exact ⟨List.append_nil _, rfl⟩
  | cons ch suffix => simp [hstop ch rfl]

/-- The base is found, and the digits and the suffix behind it. A zero alone is read
in base 10. -/
theorem Spelling.radixOf (h : Spelling text radix digits suffix) :
    radixOf text = (radix.base, digits ++ suffix) ∨ text = ['0'] ∧ digits = ['0'] ∧ suffix = [] ∧ radix = .octal := by
  obtain ⟨rfl, hfirst, hsome, hdigits, hsuffix⟩ := h
  obtain ⟨ch, rest, rfl⟩ := List.exists_cons_of_ne_nil hsome
  cases radix with
  | decimal =>
    left
    have hne : ch ≠ '0' := fun hch => hfirst (hch ▸ rfl)
    unfold Scan.radixOf
    split <;> simp_all [Radix.lead, Radix.base]
  | octal =>
    obtain rfl : ch = '0' := Option.some.inj hfirst
    cases hrest : rest ++ suffix with
    | nil =>
      obtain ⟨rfl, rfl⟩ := List.append_eq_nil_iff.mp hrest
      exact .inr ⟨rfl, rfl, rfl, rfl⟩
    | cons next others =>
      left
      -- neither an octal digit nor a suffix goes on like another base
      have hnext : next ∉ ['x', 'X', 'b', 'B'] := by
        cases rest with
        | nil =>
          have hletter := isValidSuffix_mem hsuffix (List.mem_of_head? (congrArg List.head? hrest))
          have hletters : ∀ ch ∈ ['u', 'U', 'l', 'L'], ch ∉ ['x', 'X', 'b', 'B'] := by decide
          exact hletters next hletter
        | cons digit rest =>
          obtain rfl : digit = next := (List.cons.inj hrest).1
          have hdigit : isLiteralDigit 8 digit = true := hdigits digit (by simp)
          intro hmem
          have hnone : ∀ ch ∈ ['x', 'X', 'b', 'B'], isLiteralDigit 8 ch = false := by decide
          rw [hnone digit hmem] at hdigit
          cases hdigit
      simp only [Radix.lead, List.nil_append, List.cons_append, hrest, Radix.base]
      unfold Scan.radixOf
      split <;> simp_all
  | hex capital =>
    left
    cases capital <;> rfl
  | binary capital =>
    left
    cases capital <;> rfl

theorem Spelling.parse (h : Spelling text radix digits suffix) :
    parseUnsignedLiteral 1 text = checked (number radix.base digits : Nat) := by
  have hvalue : ∀ base, 0 < base → (∀ ch ∈ digits, isLiteralDigit base ch = true) →
      (digits.foldlM (accumulateDigit base) (0 : Int)).bind (LongLong.mul 1) = checked (number base digits : Nat) := by
    intro base hbase hdigits
    have hfold := foldlM_accumulateDigit hbase hdigits 0 (by decide)
    rw [show ((0 : Nat) : Int) = 0 from rfl] at hfold
    rw [hfold, ← number]
    by_cases hrange : InRange (number base digits : Nat)
    · rw [LongLong.checked_of_inRange hrange, Except.bind, LongLong.mul, one_mul, LongLong.checked_of_inRange hrange]
    · rw [show checked (number base digits : Nat) = .error .undefined from if_neg hrange, Except.bind]
  have hnonempty : text.isEmpty = false := by
    rw [h.text]
    cases hdigits : digits with
    | nil => exact absurd hdigits h.some
    | cons ch digits => simp
  have hsome : digits.isEmpty = false := by simpa using h.some
  rcases h.radixOf with hradix | ⟨rfl, rfl, rfl, rfl⟩
  · obtain ⟨htake, hdrop⟩ := span_digits h.digits (radix_base_mem radix) h.suffix
    unfold parseUnsignedLiteral
    simp only [hnonempty, Bool.false_eq_true, if_false, hradix, htake, hdrop, hsome, h.suffix, Bool.not_true, Bool.or_self]
    exact hvalue _ (radix_base_pos radix) h.digits
  · decide

theorem parse_unknown (h : ∀ radix digits suffix, ¬Spelling text radix digits suffix) (sign : Int) :
    parseUnsignedLiteral sign text = .error .unknown := by
  have hspell : ∀ (radix : Radix) (rest : List Char), text = radix.lead ++ rest →
      radix.FirstDigit (rest.takeWhile (isLiteralDigit radix.base)) →
      (rest.takeWhile (isLiteralDigit radix.base)).isEmpty = true ∨
        isValidSuffix (rest.dropWhile (isLiteralDigit radix.base)) = false := by
    intro radix rest htext hfirst
    by_contra hnot
    obtain ⟨hsome, hsuffix⟩ := not_or.mp hnot
    refine h radix _ _ ⟨?_, hfirst, fun hnil => hsome (by rw [hnil]; rfl), ?_, by simpa using hsuffix⟩
    · rw [List.append_assoc, List.takeWhile_append_dropWhile]
      exact htext
    · exact fun ch hch => List.mem_takeWhile_imp hch
  have hradix : ((radixOf text).2.takeWhile (isLiteralDigit (radixOf text).1)).isEmpty = true ∨
      isValidSuffix ((radixOf text).2.dropWhile (isLiteralDigit (radixOf text).1)) = false := by
    fun_cases radixOf text
    · exact hspell (.hex false) _ rfl trivial
    · exact hspell (.hex true) _ rfl trivial
    · exact hspell (.binary false) _ rfl trivial
    · exact hspell (.binary true) _ rfl trivial
    · refine hspell .octal _ rfl ?_
      rw [List.takeWhile_cons_of_pos (by decide)]
      rfl
    · rename_i hzero
      by_cases halone : text = ['0']
      · exact absurd ⟨halone, rfl, by decide, by decide, by decide⟩ (h .octal ['0'] [])
      · refine hspell .decimal text rfl fun hhead => ?_
        cases text with
        | nil => cases hhead
        | cons ch rest =>
          rw [List.takeWhile_cons] at hhead
          split at hhead
          · obtain rfl := Option.some.inj hhead
            cases rest with
            | nil => exact halone rfl
            | cons next rest => exact hzero next rest rfl
          · cases hhead
  unfold parseUnsignedLiteral
  split
  · rfl
  · generalize radixOf text = radix at hradix
    obtain ⟨base, text⟩ := radix
    dsimp only at hradix ⊢
    rw [if_pos (by simpa using hradix)]

-- ---------------------------------------------------------------------------
-- Literals of C++
-- ---------------------------------------------------------------------------

/-- The text is an integer literal with a `u`, `l` or `ll` suffix, and stands for the
number. -/
def IsLiteral (s : List Char) (n : Nat) : Prop :=
  ∃ l : IntegerLiteral, l.sign = [] ∧ 'z' ∉ l.suffix ∧ 'Z' ∉ l.suffix ∧ l.unsignedText = s ∧
    number l.radix.base (l.first :: l.groups).flatten = n ∧ n < 2 ^ 63

/-- The parser has the value of a literal and nothing for any other text. -/
def LiteralExact (s : List Char) : Prop :=
  (∀ n, IsLiteral s n → parseScanIntegerLiteral s = .ok (n : Int)) ∧
    ((¬∃ n, IsLiteral s n) → parseScanIntegerLiteral s = .error .unknown)

/-- A decimal digit in a text that starts like a hexadecimal literal. -/
def MixedHex (s : List Char) : Prop :=
  (['0', 'x'] <+: s ∨ ['0', 'X'] <+: s) ∧ ∃ ch ∈ s.drop 2, ch.isDigit = true

instance (s : List Char) : Decidable (MixedHex s) := inferInstanceAs (Decidable (_ ∧ ∃ ch ∈ _, _))

/-- The text without the white space around it and without separators. -/
def bare (s : List Char) : List Char :=
  trimAsciiView ((trimAsciiView s).filter (· ≠ '\''))

/-- Without separators and the white space around it the text is a run of digits that
the parser knows, and a suffix in any mixture of cases. -/
def TakenForLiteral (s : List Char) : Prop :=
  ∃ radix digits suffix, Spelling (bare s) radix digits suffix

theorem isDigit_iff : ch.isDigit = true ↔ 48 ≤ ch.toNat ∧ ch.toNat ≤ 57 := by
  rw [Char.isDigit, Bool.and_eq_true, decide_eq_true_eq, decide_eq_true_eq, ge_iff_le, UInt32.le_iff_toNat_le,
    UInt32.le_iff_toNat_le]
  rfl

theorem isDigit_not_space (h : ch.isDigit = true) : isSpace ch = false ∧ ch ≠ '\'' := by
  have hspaces : ∀ ch ∈ [' ', '\t', '\n', '\x0b', '\x0c', '\r', '\''], ch.isDigit = false :=
    List.all_iff_forall_prop.mp (by decide)
  refine ⟨?_, fun hquote => ?_⟩
  · rw [Bool.eq_false_iff]
    intro hspace
    rw [hspaces ch (List.mem_append_left ['\''] (Codegen.isSpace_cases hspace))] at h
    cases h
  · rw [hspaces ch (by simp [hquote])] at h
    cases h

theorem trimAsciiView_head {rest : List Char} (h : isSpace ch = false) :
    trimAsciiView (ch :: rest) = ch :: rest.rdropWhile isSpace := by
  unfold trimAsciiView Trimming.trim
  rw [List.dropWhile_cons_of_neg (by simp [h])]
  exact Trimming.rdropWhile_append_cons h [] rest

theorem parse_eq_bare {s : List Char} (h : s.head?.any Char.isDigit = true) :
    parseScanIntegerLiteral s = parseUnsignedLiteral 1 (bare s) := by
  cases s with
  | nil => cases h
  | cons ch rest =>
    have hdigit : ch.isDigit = true := by simpa using h
    obtain ⟨hspace, hquote⟩ := isDigit_not_space hdigit
    have hsigns : ch ≠ '+' ∧ ch ≠ '-' := by
      constructor
      · rintro rfl
        revert hdigit
        decide
      · rintro rfl
        revert hdigit
        decide
    have hfilter : ((ch :: rest.rdropWhile isSpace).filter (· ≠ '\'')) =
        ch :: (rest.rdropWhile isSpace).filter (· ≠ '\'') := List.filter_cons_of_pos (by simp [hquote])
    simp only [parseScanIntegerLiteral, bare, trimAsciiView_head hspace, hfilter, List.isEmpty_cons, Bool.false_eq_true,
      if_false]
    split
    · rename_i heq
      cases heq
    · rename_i heq
      exact absurd (List.cons.inj heq).1 hsigns.1
    · rename_i heq
      exact absurd (List.cons.inj heq).1 hsigns.2
    · rw [trimAsciiView_head hspace]

theorem mem_rdropWhile {p : Char → Bool} (hmem : ch ∈ text) (h : p ch = false) : ch ∈ text.rdropWhile p := by
  obtain ⟨dropped, htext, hdropped⟩ := Trimming.exists_rdropWhile p text
  rw [htext] at hmem
  obtain hkept | hgone := List.mem_append.mp hmem
  · exact hkept
  · rw [hdropped ch hgone] at h
    cases h

theorem mixedHex_not_taken {s : List Char} (h : MixedHex s) : ¬TakenForLiteral s := by
  rintro ⟨radix, digits, suffix, hspelling⟩
  obtain ⟨hlead, digit, hmem, hdigit⟩ := h
  obtain ⟨hspace, hquote⟩ := isDigit_not_space hdigit
  obtain ⟨x, rest, rfl, hx⟩ : ∃ x rest, s = '0' :: x :: rest ∧ x ∈ ['x', 'X'] := by
    obtain ⟨rest, rfl⟩ | ⟨rest, rfl⟩ := hlead
    · exact ⟨'x', rest, rfl, by decide⟩
    · exact ⟨'X', rest, rfl, by decide⟩
  have hxs : ∀ x ∈ ['x', 'X'], isSpace x = false ∧ x ≠ '\'' := by decide
  obtain ⟨rest', hrest', hmem'⟩ : ∃ rest', bare ('0' :: x :: rest) = '0' :: x :: rest' ∧ digit ∈ rest' := by
    have htrim : ∀ rest : List Char, (x :: rest).rdropWhile isSpace = x :: rest.rdropWhile isSpace :=
      fun rest => Trimming.rdropWhile_append_cons (hxs x hx).1 [] rest
    refine ⟨((rest.rdropWhile isSpace).filter (· ≠ '\'')).rdropWhile isSpace, ?_, mem_rdropWhile ?_ hspace⟩
    · have hzero : isSpace '0' = false := by decide
      rw [bare, trimAsciiView_head hzero, htrim, List.filter_cons_of_pos (by decide),
        List.filter_cons_of_pos (by simp [(hxs x hx).2]), trimAsciiView_head hzero, htrim]
    · exact List.mem_filter.mpr ⟨mem_rdropWhile hmem hspace, by simp [hquote]⟩
  rw [hrest'] at hspelling
  have hradix : radixOf ('0' :: x :: rest') = (16, rest') := by
    obtain ⟨ch, others, rfl⟩ := List.exists_cons_of_ne_nil (List.ne_nil_of_mem hmem')
    simp only [List.mem_cons, List.not_mem_nil, or_false] at hx
    obtain rfl | rfl := hx <;> rfl
  obtain hfound | ⟨hzero, -⟩ := hspelling.radixOf
  · rw [hradix] at hfound
    obtain ⟨hbase, hparts⟩ := Prod.mk.inj hfound
    rw [hparts] at hmem'
    have hcode := isDigit_iff.mp hdigit
    obtain hdigits | hsuffix := List.mem_append.mp hmem'
    · have hletter := (isLiteralDigit_iff (radix_base_pos radix)).mp (hspelling.digits digit hdigits)
      omega
    · have hletters : ∀ ch ∈ ['u', 'U', 'l', 'L'], ch.isDigit = false := by decide
      rw [hletters digit (isValidSuffix_mem hspelling.suffix hsuffix)] at hdigit
      cases hdigit
  · cases hzero

theorem filter_intercalate (groups : List (List Char)) (h : ∀ group ∈ groups, ∀ ch ∈ group, ch ≠ '\'') :
    (['\''].intercalate groups).filter (· ≠ '\'') = groups.flatten := by
  induction groups with
  | nil => rfl
  | cons group groups ih =>
    have hgroup : group.filter (· ≠ '\'') = group :=
      List.filter_eq_self.mpr fun ch hch => decide_eq_true (h group List.mem_cons_self ch hch)
    have hgroups := ih fun other hother => h other (List.mem_cons_of_mem _ hother)
    cases groups with
    | nil => simpa [List.intercalate] using hgroup
    | cons next groups =>
      rw [List.intercalate_cons_cons, List.filter_append, List.filter_append, hgroup, hgroups, List.flatten_cons]
      simp

theorem trimAsciiView_eq_self (h : ∀ ch ∈ text, isSpace ch = false) : trimAsciiView text = text := by
  cases text with
  | nil => rfl
  | cons ch rest =>
    rw [trimAsciiView_head (h ch List.mem_cons_self)]
    obtain ⟨dropped, hrest, hdropped⟩ := Trimming.exists_rdropWhile isSpace rest
    cases dropped with
    | nil => rw [← List.append_nil (rest.rdropWhile isSpace), ← hrest]
    | cons c dropped =>
      have hspace := hdropped c List.mem_cons_self
      have hmem : c ∈ ch :: rest := by
        rw [hrest]
        simp
      rw [h c hmem] at hspace
      cases hspace

theorem bare_unsignedText (l : IntegerLiteral) :
    bare l.unsignedText = l.radix.lead ++ (l.first :: l.groups).flatten ++ l.suffix := by
  have hdigit : ∀ group ∈ l.first :: l.groups, ∀ ch ∈ group, isSpace ch = false ∧ ch ≠ '\'' := by
    intro group hgroup ch hch
    have hmem := CppLiteral.mem_of_isDigit (by cases l.radix <;> simp [Radix.base])
      ((l.digits group hgroup).2 ch hch)
    have hchars : ∀ ch ∈ "0123456789abcdefABCDEF".toList, isSpace ch = false ∧ ch ≠ '\'' := by decide
    exact hchars ch hmem
  have hlead : ∀ ch ∈ l.radix.lead, isSpace ch = false ∧ ch ≠ '\'' := by
    cases l.radix with
    | decimal | octal => exact nofun
    | hex capital | binary capital => cases capital <;> decide
  have hsuffix : ∀ ch ∈ l.suffix, isSpace ch = false ∧ ch ≠ '\'' := by
    have hsuffixes : ∀ suffix ∈ CppLiteral.integerSuffixes, ∀ ch ∈ suffix, isSpace ch = false ∧ ch ≠ '\'' := by decide
    exact hsuffixes l.suffix l.suffixOk
  have hparts : l.unsignedText.filter (· ≠ '\'') = l.radix.lead ++ (l.first :: l.groups).flatten ++ l.suffix := by
    unfold IntegerLiteral.unsignedText
    rw [List.filter_append, List.filter_append, filter_intercalate _ fun group hgroup ch hch => (hdigit group hgroup ch hch).2,
      List.filter_eq_self.mpr fun ch hch => decide_eq_true (hlead ch hch).2,
      List.filter_eq_self.mpr fun ch hch => decide_eq_true (hsuffix ch hch).2]
  have hspace : ∀ ch ∈ l.unsignedText, isSpace ch = false := by
    intro ch hch
    by_cases hquote : ch = '\''
    · rw [hquote]
      decide
    · have hmem : ch ∈ l.unsignedText.filter (· ≠ '\'') := List.mem_filter.mpr ⟨hch, by simp [hquote]⟩
      rw [hparts, List.mem_append, List.mem_append, List.mem_flatten] at hmem
      obtain (hmem | ⟨group, hgroup, hmem⟩) | hmem := hmem
      · exact (hlead ch hmem).1
      · exact (hdigit group hgroup ch hmem).1
      · exact (hsuffix ch hmem).1
  rw [bare, trimAsciiView_eq_self hspace, trimAsciiView_eq_self fun ch hch => hspace ch (List.mem_filter.mp hch).1, hparts]

theorem unsignedText_spelling (l : IntegerLiteral) (hz : 'z' ∉ l.suffix) (hZ : 'Z' ∉ l.suffix)
    (hdigits : ∀ ch ∈ (l.first :: l.groups).flatten, isLiteralDigit l.radix.base ch = true) :
    Spelling (bare l.unsignedText) l.radix (l.first :: l.groups).flatten l.suffix := by
  refine ⟨bare_unsignedText l, ?_, ?_, hdigits, ?_⟩
  · obtain ⟨ch, rest, hfirst⟩ := List.exists_cons_of_ne_nil (l.digits l.first List.mem_cons_self).1
    have hok := l.firstOk
    rw [List.flatten_cons, hfirst]
    rw [hfirst] at hok
    cases hradix : l.radix <;> rw [hradix] at hok <;> exact hok
  · rw [List.flatten_cons]
    exact List.append_ne_nil_of_left_ne_nil (l.digits l.first List.mem_cons_self).1 _
  · have hsuffixes : ∀ suffix ∈ CppLiteral.integerSuffixes, 'z' ∉ suffix → 'Z' ∉ suffix → isValidSuffix suffix = true := by
      decide
    exact hsuffixes l.suffix l.suffixOk hz hZ

/-- A literal is taken for what it is, unless it mixes letters and decimal digits. -/
theorem literal_spelling {s : List Char} {n : Nat} (h : IsLiteral s n) (hmixed : ¬MixedHex s) :
    ∃ radix digits suffix, Spelling (bare s) radix digits suffix ∧ number radix.base digits = n := by
  obtain ⟨l, -, hz, hZ, rfl, hnumber, -⟩ := h
  refine ⟨l.radix, (l.first :: l.groups).flatten, l.suffix, unsignedText_spelling l hz hZ fun ch hch => ?_, hnumber⟩
  obtain ⟨group, hgroup, hmem⟩ := List.mem_flatten.mp hch
  refine isLiteralDigit_of_isDigit (radix_base_mem l.radix) ((l.digits group hgroup).2 ch hmem) fun hbase hcode => ?_
  refine hmixed ⟨?_, ch, ?_, isDigit_iff.mpr hcode⟩
  · cases hradix : l.radix with
    | decimal | octal | binary capital => simp [hradix, Radix.base] at hbase
    | hex capital =>
      unfold IntegerLiteral.unsignedText
      rw [hradix, List.append_assoc]
      cases capital
      · exact .inl (List.prefix_append _ _)
      · exact .inr (List.prefix_append _ _)
  · have hgroups : ch ∈ ['\''].intercalate (l.first :: l.groups) := by
      have hdigits : ∀ group ∈ l.first :: l.groups, ∀ ch ∈ group, ch ≠ '\'' := fun group hgroup ch hch =>
        CppLiteral.isDigit_ne (by cases l.radix <;> simp [Radix.base]) ((l.digits group hgroup).2 ch hch) (by decide)
      rw [← filter_intercalate _ hdigits] at hch
      exact (List.mem_filter.mp hch).1
    cases hradix : l.radix with
    | decimal | octal | binary capital => simp [hradix, Radix.base] at hbase
    | hex capital =>
      unfold IntegerLiteral.unsignedText
      rw [hradix]
      exact List.mem_append_left _ hgroups

/-- The parser is exact on a text that starts with a digit exactly when this is a literal
without a mixture of letters and digits, or is not even taken for one. -/
theorem literalExact_iff {s : List Char} (hdigit : s.head?.any Char.isDigit = true) :
    LiteralExact s ↔
      (∃ n, IsLiteral s n) ∧ ¬MixedHex s ∨ (¬∃ n, IsLiteral s n) ∧ ¬TakenForLiteral s := by
  have hunknown : ¬TakenForLiteral s → parseScanIntegerLiteral s = .error .unknown := by
    intro hnot
    rw [parse_eq_bare hdigit]
    exact parse_unknown (fun radix digits suffix hspelling => hnot ⟨radix, digits, suffix, hspelling⟩) 1
  by_cases hliteral : ∃ n, IsLiteral s n
  · simp only [LiteralExact, hliteral, not_true_eq_false, false_implies, and_true, true_and, false_and, or_false]
    obtain ⟨n, hn⟩ := hliteral
    constructor
    · intro hexact hmixed
      have hvalue := hexact n hn
      rw [hunknown (mixedHex_not_taken hmixed)] at hvalue
      cases hvalue
    · intro hmixed m hm
      obtain ⟨radix, digits, suffix, hspelling, hnumber⟩ := literal_spelling hm hmixed
      have hrange : InRange (m : Nat) := by
        obtain ⟨-, -, -, -, -, -, hlt⟩ := hm
        unfold InRange
        omega
      rw [parse_eq_bare hdigit, hspelling.parse, hnumber, LongLong.checked_of_inRange hrange]
  · simp only [LiteralExact, hliteral, not_false_eq_true, true_implies, false_and, true_and, false_or]
    constructor
    · rintro ⟨-, hnothing⟩ ⟨radix, digits, suffix, hspelling⟩
      rw [parse_eq_bare hdigit, hspelling.parse] at hnothing
      exact LongLong.checked_ne_unknown _ hnothing
    · exact fun hnot => ⟨fun n hn => absurd ⟨n, hn⟩ hliteral, hunknown hnot⟩

theorem noSign_mem : ([] : List Char) ∈ [[], ['-'], ['+']] := by decide

theorem noSuffix_mem : [] ∈ CppLiteral.integerSuffixes := by decide

theorem hexTen_first : (Radix.hex false).FirstDigit ['1', '0'] := by decide

theorem hexTen_digits :
    ∀ group ∈ [['1', '0']], group ≠ [] ∧ ∀ ch ∈ group, isDigit (Radix.hex false).base ch := by decide

def octalTen : IntegerLiteral := ⟨[], .octal, ['0', '1', '0'], [], ['u'], noSign_mem, by decide, by decide, by decide⟩

def hexSixteen : IntegerLiteral :=
  ⟨[], .hex false, ['1', '0'], [], [], noSign_mem, hexTen_first, hexTen_digits, noSuffix_mem⟩

theorem octal_exact : LiteralExact ['0', '1', '0', 'u'] :=
  (literalExact_iff (by decide)).mpr
    (.inl ⟨⟨8, octalTen, rfl, by decide, by decide, by decide, by decide, by decide⟩, by decide⟩)

/-- `0x10` is sixteen, and nothing for the parser. -/
theorem hexadecimal_unread : ¬LiteralExact ['0', 'x', '1', '0'] := by
  intro h
  have hvalue := h.1 16 ⟨hexSixteen, rfl, by decide, by decide, by decide, by decide, by decide⟩
  rw [show parseScanIntegerLiteral ['0', 'x', '1', '0'] = .error .unknown from rfl] at hvalue
  cases hvalue

end

end Gentest.Scan
