import Gentest.Scan.TranslationPhases

/-!
# White space in directives

Two directives that are alike but for the white space between their tokens have the same
keyword and the same operands, so that they do the same to the conditionals that are open
and define the same names.
-/

namespace Gentest.Scan

open Gentest.Codegen (isSpace)

variable {a b rest : List Char} {ch : Char}

-- ---------------------------------------------------------------------------
-- Text
-- ---------------------------------------------------------------------------

@[simp] theorem normalize_trim (a : List Char) :
    normalizeScanDirectiveLine (trimAsciiView a) = normalizeScanDirectiveLine a :=
  Squeezing.squeeze_trim a

theorem isSpace_of_isAlpha {ch : Char} (h : ch.isAlpha = true) : isSpace ch = false :=
  isSpace_of_continue (isScanIdentifierContinue_of_start (by rw [isScanIdentifierStart, h]; rfl))

/-- What is behind the first character of a trimmed text. -/
theorem normalize_of_trim_cons (h : trimAsciiView a = ch :: rest) :
    normalizeScanDirectiveLine a = ch :: Squeezing.glue isSpace ' ' rest := by
  have hch : isSpace ch = false :=
    Trimming.not_of_mem_head?_trim a ch (by rw [show Trimming.trim isSpace a = ch :: rest from h]; rfl)
  rw [← normalize_trim, h]
  exact Squeezing.squeeze_letter hch rest

theorem normalize_of_trim_nil (h : trimAsciiView a = []) : normalizeScanDirectiveLine a = [] := by
  rw [← normalize_trim, h]
  rfl

theorem trim_head?_eq (a : List Char) : (trimAsciiView a).head? = (normalizeScanDirectiveLine a).head? := by
  cases ha : trimAsciiView a with
  | nil => rw [normalize_of_trim_nil ha]
  | cons ch rest => rw [normalize_of_trim_cons ha]; rfl

theorem trim_head?_congr (h : normalizeScanDirectiveLine a = normalizeScanDirectiveLine b) :
    (trimAsciiView a).head? = (trimAsciiView b).head? := by
  rw [trim_head?_eq, trim_head?_eq, h]

theorem parseScanIdentifier_congr (h : normalizeScanDirectiveLine a = normalizeScanDirectiveLine b) :
    parseScanIdentifier a = parseScanIdentifier b := by
  have hnormal : ∀ a, parseScanIdentifier a =
      (normalizeScanDirectiveLine a).head?.bind fun ch =>
        if isScanIdentifierStart ch then
          some (ch :: (normalizeScanDirectiveLine a).tail.takeWhile isScanIdentifierContinue)
        else none := by
    intro a
    unfold parseScanIdentifier
    cases ha : trimAsciiView a with
    | nil =>
      rw [normalize_of_trim_nil ha]
      rfl
    | cons ch rest =>
      rw [normalize_of_trim_cons ha]
      dsimp only [List.head?_cons, Option.bind_some, List.tail_cons]
      rw [Squeezing.takeWhile_glue (fun _ => isSpace_of_continue) rfl]
  rw [hnormal, hnormal, h]

theorem normalize_ltrim (a : List Char) : normalizeScanDirectiveLine (ltrimAsciiView a) = normalizeScanDirectiveLine a :=
  Squeezing.squeeze_dropWhile a

theorem normalize_of_ltrim_cons (h : ltrimAsciiView a = ch :: rest) :
    normalizeScanDirectiveLine a = ch :: Squeezing.glue isSpace ' ' rest := by
  have hch : isSpace ch = false := by
    have hhead := List.head?_dropWhile_not isSpace a
    rw [show a.dropWhile isSpace = ch :: rest from h] at hhead
    simpa using hhead
  rw [← normalize_ltrim, h]
  exact Squeezing.squeeze_letter hch rest

/-- Behind a first character that is the same, the white space may differ. -/
theorem normalize_of_glue (h : Squeezing.glue isSpace ' ' a = Squeezing.glue isSpace ' ' b) :
    normalizeScanDirectiveLine a = normalizeScanDirectiveLine b := by
  have hsqueeze := congrArg normalizeScanDirectiveLine h
  rwa [normalizeScanDirectiveLine, normalizeScanDirectiveLine, Squeezing.squeeze_glue rfl,
    Squeezing.squeeze_glue rfl] at hsqueeze

variable {p : Char → Bool}

theorem takeWhile_congr (hp : ∀ ch, p ch = true → isSpace ch = false)
    (h : normalizeScanDirectiveLine a = normalizeScanDirectiveLine b) :
    (ltrimAsciiView a).takeWhile p = (ltrimAsciiView b).takeWhile p := by
  have htake : ∀ a, (normalizeScanDirectiveLine a).takeWhile p = (ltrimAsciiView a).takeWhile p :=
    Squeezing.takeWhile_squeeze hp rfl
  exact (htake a).symm.trans ((congrArg (List.takeWhile p) h).trans (htake b))

theorem dropWhile_congr (hp : ∀ ch, p ch = true → isSpace ch = false)
    (h : normalizeScanDirectiveLine a = normalizeScanDirectiveLine b) :
    normalizeScanDirectiveLine ((ltrimAsciiView a).dropWhile p) =
      normalizeScanDirectiveLine ((ltrimAsciiView b).dropWhile p) := by
  have hdrop : ∀ a, normalizeScanDirectiveLine ((normalizeScanDirectiveLine a).dropWhile p) =
      normalizeScanDirectiveLine ((ltrimAsciiView a).dropWhile p) :=
    Squeezing.squeeze_dropWhile_squeeze hp rfl
  have hmiddle : normalizeScanDirectiveLine ((normalizeScanDirectiveLine a).dropWhile p) =
      normalizeScanDirectiveLine ((normalizeScanDirectiveLine b).dropWhile p) := by
    rw [h]
  exact (hdrop a).symm.trans (hmiddle.trans (hdrop b))

theorem drop_identifier_congr (h : normalizeScanDirectiveLine a = normalizeScanDirectiveLine b)
    (ha : trimAsciiView a = a) (hb : trimAsciiView b = b) {ident : List Char}
    (hident : parseScanIdentifier a = some ident) :
    normalizeScanDirectiveLine (a.drop ident.length) = normalizeScanDirectiveLine (b.drop ident.length) := by
  have hdrop : ∀ {a : List Char}, trimAsciiView a = a → parseScanIdentifier a = some ident →
      a.drop ident.length = (ltrimAsciiView a).dropWhile isScanIdentifierContinue := by
    intro a ha hident
    unfold parseScanIdentifier at hident
    rw [ha] at hident
    cases a with
    | nil => cases hident
    | cons ch rest =>
      dsimp only at hident
      split at hident
      · rename_i hstart
        cases hident
        have hcontinue := isScanIdentifierContinue_of_start hstart
        have hself : ltrimAsciiView (ch :: rest) = ch :: rest :=
          List.dropWhile_cons_of_neg (by rw [isSpace_of_continue hcontinue]; exact Bool.false_ne_true)
        have hsplit : ∀ x y, rest = x ++ y → rest.drop x.length = y := by
          rintro x y rfl
          exact List.drop_left
        rw [hself, List.dropWhile_cons_of_pos hcontinue, List.length_cons, List.drop_succ_cons]
        exact hsplit _ _ List.takeWhile_append_dropWhile.symm
      · cases hident
  rw [hdrop ha hident, hdrop hb ((parseScanIdentifier_congr h).symm.trans hident)]
  exact dropWhile_congr (fun _ => isSpace_of_continue) h

-- ---------------------------------------------------------------------------
-- Directives
-- ---------------------------------------------------------------------------

theorem directiveOf_hash (h : ltrimAsciiView a = '#' :: rest) :
    directiveOf a =
      some (keywordOf ((ltrimAsciiView rest).takeWhile Char.isAlpha),
        trimAsciiView ((ltrimAsciiView rest).dropWhile Char.isAlpha)) := by
  unfold directiveOf
  rw [h]
  rfl

theorem directiveOf_eq_none (h : (ltrimAsciiView a).head? ≠ some '#') : directiveOf a = none := by
  unfold directiveOf
  split
  · rename_i heq
    rw [heq] at h
    exact absurd rfl h
  · rfl

theorem ltrim_head?_congr (h : normalizeScanDirectiveLine a = normalizeScanDirectiveLine b) :
    (ltrimAsciiView a).head? = (ltrimAsciiView b).head? :=
  (Squeezing.head?_squeeze a).symm.trans ((congrArg List.head? h).trans (Squeezing.head?_squeeze b))

theorem directiveOf_congr (h : normalizeScanDirectiveLine a = normalizeScanDirectiveLine b) :
    directiveOf a = none ∧ directiveOf b = none ∨
      ∃ keyword restA restB, directiveOf a = some (keyword, restA) ∧ directiveOf b = some (keyword, restB) ∧
        trimAsciiView restA = restA ∧ trimAsciiView restB = restB ∧
        normalizeScanDirectiveLine restA = normalizeScanDirectiveLine restB := by
  by_cases hhash : (ltrimAsciiView a).head? = some '#'
  · obtain ⟨restA, ha⟩ := List.head?_eq_some_iff.mp hhash
    obtain ⟨restB, hb⟩ := List.head?_eq_some_iff.mp ((ltrim_head?_congr h).symm.trans hhash)
    have hrest : normalizeScanDirectiveLine restA = normalizeScanDirectiveLine restB := by
      rw [normalize_of_ltrim_cons ha, normalize_of_ltrim_cons hb] at h
      exact normalize_of_glue (List.cons.inj h).2
    have hkeyword := takeWhile_congr (fun _ => isSpace_of_isAlpha) hrest
    refine .inr ⟨_, _, _, directiveOf_hash ha, (directiveOf_hash hb).trans ?_, Trimming.trim_trim _,
      Trimming.trim_trim ((ltrimAsciiView restB).dropWhile Char.isAlpha), ?_⟩
    · rw [hkeyword]
      rfl
    exact (normalize_trim _).trans
      ((dropWhile_congr (fun _ => isSpace_of_isAlpha) hrest).trans (normalize_trim _).symm)
  · exact .inl ⟨directiveOf_eq_none hhash, directiveOf_eq_none (ltrim_head?_congr h ▸ hhash)⟩

/-- The same conditionals are open, and the same names are defined. -/
structure Alike (s t : ScanStreamState) : Prop where
  active : s.currentBranchActive = t.currentBranchActive
  conditionals : s.conditionals = t.conditionals
  macros : ∀ ident, (s.objectLikeMacros ident).isSome = (t.objectLikeMacros ident).isSome

variable {s t : ScanStreamState}

theorem Alike.update (h : Alike s t) : Alike (updatePreprocessorBranchState s) (updatePreprocessorBranchState t) :=
  ⟨by rw [updatePreprocessorBranchState, updatePreprocessorBranchState, h.conditionals], h.conditionals, h.macros⟩

theorem Alike.frames (h : Alike s t) {frames frames' : List ScanConditionalFrame} (hframes : frames = frames') :
    Alike { s with conditionals := frames } { t with conditionals := frames' } :=
  ⟨h.active, hframes, h.macros⟩

theorem Alike.warn_left (h : Alike s t) (keyword : String) (expr : List Char) (n : Nat) :
    Alike (warnUnknownPreprocessorCondition keyword expr n s) t :=
  ⟨by rw [currentBranchActive_warn, h.active], by rw [conditionals_warn, h.conditionals], by
    rw [objectLikeMacros_warn]; exact h.macros⟩

theorem Alike.symm (h : Alike s t) : Alike t s :=
  ⟨h.active.symm, h.conditionals.symm, fun ident => (h.macros ident).symm⟩

theorem Alike.openConditional (h : Alike s t) {active active' : Bool} (hactive : active = active') :
    Alike (s.openConditional active) (t.openConditional active') := by
  unfold ScanStreamState.openConditional
  exact (h.frames (by rw [h.active, h.conditionals, hactive])).update

theorem Alike.isDefined (h : Alike s t) (hrest : normalizeScanDirectiveLine a = normalizeScanDirectiveLine b) :
    s.isDefined a = t.isDefined b := by
  unfold ScanStreamState.isDefined
  rw [parseScanIdentifier_congr hrest]
  cases parseScanIdentifier b with
  | none => rfl
  | some ident => exact h.macros ident

theorem Alike.warn (h : Alike s t) (p : Bool) (keyword : String) (a b : List Char) (m n : Nat) :
    Alike (if p then warnUnknownPreprocessorCondition keyword a m s else s)
      (if p then warnUnknownPreprocessorCondition keyword b n t else t) := by
  split
  · exact ((h.warn_left keyword a m).symm.warn_left keyword b n).symm
  · exact h

theorem Alike.handleIf (h : Alike s t) (a b : List Char) (evaluated : Option Bool) (m n : Nat) :
    Alike (Scan.handleIf s a evaluated m) (Scan.handleIf t b evaluated n) := by
  unfold Scan.handleIf
  dsimp only
  rw [h.active]
  exact (h.warn _ "if" a b m n).openConditional rfl

theorem Alike.handleElif (h : Alike s t) (a b : List Char) (evaluated : Option Bool) (m n : Nat) :
    Alike (Scan.handleElif s a evaluated m) (Scan.handleElif t b evaluated n) := by
  unfold Scan.handleElif
  rw [h.conditionals]
  cases t.conditionals with
  | nil => exact h
  | cons frame outer => exact ((h.warn _ "elif" a b m n).frames rfl).update

theorem Alike.handleElse (h : Alike s t) : Alike (Scan.handleElse s) (Scan.handleElse t) := by
  unfold Scan.handleElse
  rw [h.conditionals]
  cases t.conditionals with
  | nil => exact h
  | cons frame outer => exact (h.frames rfl).update

theorem update_keys {macros macros' : MacroTable} (h : ∀ name, (macros name).isSome = (macros' name).isSome)
    (ident : List Char) {value value' : Option (List Char)} (hvalue : value.isSome = value'.isSome) (name : List Char) :
    (Function.update macros ident value name).isSome = (Function.update macros' ident value' name).isSome := by
  by_cases hname : name = ident
  · rw [hname, Function.update_self, Function.update_self, hvalue]
  · rw [Function.update_of_ne hname, Function.update_of_ne hname, h]

theorem Alike.handleDefine (h : Alike s t) (hrest : normalizeScanDirectiveLine a = normalizeScanDirectiveLine b)
    (ha : trimAsciiView a = a) (hb : trimAsciiView b = b) : Alike (Scan.handleDefine s a) (Scan.handleDefine t b) := by
  unfold Scan.handleDefine
  rw [← parseScanIdentifier_congr hrest]
  cases hident : parseScanIdentifier a with
  | none => exact h
  | some ident =>
    dsimp only
    rw [trim_head?_congr (drop_identifier_congr hrest ha hb hident)]
    split
    · exact h
    · exact ⟨h.active, h.conditionals, update_keys h.macros ident rfl⟩

theorem Alike.handleUndef (h : Alike s t) (hrest : normalizeScanDirectiveLine a = normalizeScanDirectiveLine b) :
    Alike (Scan.handleUndef s a) (Scan.handleUndef t b) := by
  unfold Scan.handleUndef
  rw [parseScanIdentifier_congr hrest]
  cases parseScanIdentifier b with
  | none => exact h
  | some ident =>
    exact ⟨h.active, h.conditionals, update_keys h.macros ident rfl⟩

/-- The white space in a directive does not matter to what it does. -/
theorem Alike.handle (h : Alike s t) (hline : normalizeScanDirectiveLine a = normalizeScanDirectiveLine b)
    (evaluated : Option Bool) (m n : Nat) :
    Alike (handlePreprocessorLogicalLine a evaluated m s) (handlePreprocessorLogicalLine b evaluated n t) := by
  unfold handlePreprocessorLogicalLine
  obtain ⟨ha, hb⟩ | ⟨keyword, restA, restB, ha, hb, hselfA, hselfB, hrest⟩ := directiveOf_congr hline
  · rw [ha, hb]
    exact h
  · rw [ha, hb]
    cases keyword with
    | if_ => exact h.handleIf _ _ _ _ _
    | ifdef => exact h.openConditional (by rw [h.active, h.isDefined hrest])
    | ifndef => exact h.openConditional (by rw [h.active, h.isDefined hrest])
    | elif => exact h.handleElif _ _ _ _ _
    | else_ => exact h.handleElse
    | endif => exact (h.frames (by rw [h.conditionals])).update
    | define =>
      dsimp only
      rw [h.active]
      split
      · exact h.handleDefine hrest hselfA hselfB
      · exact h
    | undef =>
      dsimp only
      rw [h.active]
      split
      · exact h.handleUndef hrest
      · exact h
    | other => exact h

end Gentest.Scan
