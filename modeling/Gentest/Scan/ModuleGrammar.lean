import Gentest.Scan.ModuleNames

/-!
# The grammar of module names

A module name is a dotted name, two of them with a colon between, or, for a partition,
one behind a colon. `canonicalize_scan_module_name` takes one dot more at the end of a
dotted name, and nothing else that the grammar does not have.
-/

namespace Gentest.Scan

open Gentest.Codegen (isSpace)

-- ---------------------------------------------------------------------------
-- The grammar
-- ---------------------------------------------------------------------------

/-- `id(.id)*` -/
def IsDotted (text : List Char) : Prop :=
  ∃ ids, ids ≠ [] ∧ (∀ ident ∈ ids, IsScanIdentifier ident) ∧ text = ['.'].intercalate ids

/-- A dotted name with perhaps one dot more at its end. -/
def IsLoose (text : List Char) : Prop := IsDotted text ∨ ∃ front, IsDotted front ∧ text = front ++ ['.']

/-- Names with `component` for the parts around the colon. -/
inductive ModuleName (component : List Char → Prop) (allowPartitionOnly : Bool) : List Char → Prop
  | plain {primary : List Char} : component primary → ModuleName component allowPartitionOnly primary
  | partition {primary part : List Char} : component primary → component part →
    ModuleName component allowPartitionOnly (primary ++ ':' :: part)
  | only {part : List Char} : allowPartitionOnly = true → component part →
    ModuleName component allowPartitionOnly (':' :: part)

/-- The text without outer white space and the white space around its colons. -/
def cleaned (text : List Char) : List Char :=
  [':'].intercalate (((trimAsciiView text).splitOn ':').map trimAsciiView)

/-- A name is returned exactly for the texts of the grammar; it has no white space in it
and is its own name. -/
def AcceptedByGrammar (text : List Char) (allowPartitionOnly : Bool) : Prop :=
  ((canonicalizeScanModuleName text allowPartitionOnly).isSome = true ↔
      ModuleName IsDotted allowPartitionOnly (cleaned text)) ∧
    ∀ moduleName, canonicalizeScanModuleName text allowPartitionOnly = some moduleName →
      (∀ ch ∈ moduleName, isSpace ch = false) ∧
        canonicalizeScanModuleName moduleName allowPartitionOnly = some moduleName

/-- The name of the text has a dot too many at the end of a dotted name. -/
inductive ExtraDot (allowPartitionOnly : Bool) : List Char → Prop
  | plain {primary : List Char} : IsDotted primary → ExtraDot allowPartitionOnly (primary ++ ['.'])
  | primary {primary part : List Char} : IsDotted primary → IsLoose part →
    ExtraDot allowPartitionOnly (primary ++ ['.'] ++ ':' :: part)
  | partition {primary part : List Char} : IsLoose primary → IsDotted part →
    ExtraDot allowPartitionOnly (primary ++ ':' :: (part ++ ['.']))
  | only {part : List Char} : allowPartitionOnly = true → IsDotted part →
    ExtraDot allowPartitionOnly (':' :: (part ++ ['.']))

variable {text part primary moduleName : List Char} {allowPartitionOnly : Bool}

-- ---------------------------------------------------------------------------
-- Components
-- ---------------------------------------------------------------------------

theorem isValidScanModulePart_iff : isValidScanModulePart part = true ↔ IsScanIdentifier part := by
  unfold isValidScanModulePart IsScanIdentifier
  cases part with
  | nil => simp
  | cons ch rest =>
    simp only [List.head?_cons, Option.any_some, List.tail_cons, Bool.and_eq_true, List.all_cons]
    exact ⟨fun h => ⟨h.1, isScanIdentifierContinue_of_start h.1, h.2⟩, fun h => ⟨h.1, h.2.2⟩⟩

theorem IsScanIdentifier.not_mem {ch : Char} (h : IsScanIdentifier part) (hch : isScanIdentifierContinue ch = false) :
    ch ∉ part := by
  intro hmem
  rw [List.all_eq_true.mp h.2 ch hmem] at hch
  cases hch

theorem splitOn_dotted {ids : List (List Char)} (hne : ids ≠ []) (hids : ∀ ident ∈ ids, IsScanIdentifier ident) :
    (['.'].intercalate ids).splitOn '.' = ids :=
  List.splitOn_intercalate '.' (fun ident hident => (hids ident hident).not_mem rfl) hne

theorem intercalate_concat_nil {ids : List (List Char)} (hne : ids ≠ []) :
    ['.'].intercalate (ids ++ [[]]) = ['.'].intercalate ids ++ ['.'] := by
  induction ids with
  | nil => exact absurd rfl hne
  | cons ident ids ih =>
    cases ids with
    | nil => simp
    | cons next ids =>
      have hmore := ih (List.cons_ne_nil _ _)
      rw [List.cons_append, List.cons_append, List.intercalate_cons_cons, ← List.cons_append, hmore,
        List.intercalate_cons_cons]
      simp

theorem isDotted_iff : IsDotted text ↔ ∀ ident ∈ text.splitOn '.', IsScanIdentifier ident := by
  constructor
  · rintro ⟨ids, hne, hids, rfl⟩
    rw [splitOn_dotted hne hids]
    exact hids
  · exact fun h => ⟨_, List.splitOn_ne_nil _ _, h, (List.intercalate_splitOn '.').symm⟩

theorem IsDotted.splitOn_dot {front : List Char} (h : IsDotted front) :
    (front ++ ['.']).splitOn '.' = front.splitOn '.' ++ [[]] := by
  obtain ⟨ids, hne, hids, rfl⟩ := h
  rw [← intercalate_concat_nil hne, splitOn_dotted hne hids]
  refine List.splitOn_intercalate '.' (fun ident hident => ?_) (by simp)
  obtain hident | hident := List.mem_append.mp hident
  · exact (hids ident hident).not_mem rfl
  · rw [List.mem_singleton.mp hident]
    exact List.not_mem_nil

theorem not_isScanIdentifier_nil : ¬IsScanIdentifier [] := fun h => by cases h.1

theorem IsDotted.ne_nil (h : IsDotted text) : text ≠ [] := by
  rintro rfl
  exact not_isScanIdentifier_nil (isDotted_iff.mp h [] (by simp [List.splitOn_nil]))

theorem isLoose_iff : IsLoose text ↔ text ≠ [] ∧
    ∀ ident ∈ (if (text.splitOn '.').getLast? = some [] then (text.splitOn '.').dropLast else text.splitOn '.'),
      IsScanIdentifier ident := by
  obtain hnil | ⟨init, last, hparts⟩ := List.eq_nil_or_concat (text.splitOn '.')
  · exact absurd hnil (List.splitOn_ne_nil _ _)
  · rw [List.concat_eq_append] at hparts
    have htext : ['.'].intercalate (text.splitOn '.') = text := List.intercalate_splitOn '.'
    rw [hparts, List.getLast?_concat, List.dropLast_concat]
    rw [hparts] at htext
    have hextra : ∀ front, IsDotted front → text = front ++ ['.'] → init = front.splitOn '.' ∧ last = [] := by
      rintro front hfront rfl
      rw [hfront.splitOn_dot] at hparts
      exact ⟨(List.append_inj_left' hparts rfl).symm, (List.cons.inj (List.append_inj_right' hparts rfl)).1.symm⟩
    by_cases hlast : last = []
    · subst hlast
      rw [if_pos rfl]
      constructor
      · rintro (hdotted | ⟨front, hfront, hsplit⟩)
        · refine absurd (isDotted_iff.mp hdotted [] ?_) not_isScanIdentifier_nil
          rw [hparts]
          exact List.mem_append_right _ List.mem_cons_self
        · refine ⟨by rw [hsplit]; simp, ?_⟩
          rw [(hextra front hfront hsplit).1]
          exact isDotted_iff.mp hfront
      · rintro ⟨hne, hinit⟩
        have hinitNe : init ≠ [] := by
          rintro rfl
          exact hne htext.symm
        rw [intercalate_concat_nil hinitNe] at htext
        exact .inr ⟨_, ⟨init, hinitNe, hinit, rfl⟩, htext.symm⟩
    · rw [if_neg fun h => hlast (Option.some.inj h), ← hparts, ← isDotted_iff]
      constructor
      · rintro (hdotted | ⟨front, hfront, hsplit⟩)
        · exact ⟨hdotted.ne_nil, hdotted⟩
        · exact absurd (hextra front hfront hsplit).2 hlast
      · exact fun h => .inl h.2

theorem isValidScanModuleComponent_iff : isValidScanModuleComponent text = true ↔ IsLoose (trimAsciiView text) := by
  unfold isValidScanModuleComponent
  dsimp only
  rw [Bool.and_eq_true, List.all_eq_true, Bool.not_eq_true', List.isEmpty_eq_false_iff, isLoose_iff]
  exact and_congr_right' (forall₂_congr fun _ _ => isValidScanModulePart_iff)

-- ---------------------------------------------------------------------------
-- Names
-- ---------------------------------------------------------------------------

theorem mem_intercalate {ids : List (List Char)} {ch : Char} (h : ch ∈ ['.'].intercalate ids) :
    ch = '.' ∨ ∃ ident ∈ ids, ch ∈ ident := by
  induction ids with
  | nil => cases h
  | cons ident ids ih =>
    cases ids with
    | nil => exact .inr ⟨ident, List.mem_cons_self, by simpa using h⟩
    | cons next ids =>
      rw [List.intercalate_cons_cons, List.mem_append, List.mem_append] at h
      obtain (h | h) | h := h
      · exact .inr ⟨ident, List.mem_cons_self, h⟩
      · exact .inl (List.mem_singleton.mp h)
      · exact (ih h).imp_right fun ⟨other, hother, hch⟩ => ⟨other, List.mem_cons_of_mem _ hother, hch⟩

theorem IsDotted.mem {ch : Char} (h : IsDotted text) (hch : ch ∈ text) :
    ch = '.' ∨ isScanIdentifierContinue ch = true := by
  obtain ⟨ids, -, hids, rfl⟩ := h
  exact (mem_intercalate hch).imp_right fun ⟨ident, hident, hmem⟩ => List.all_eq_true.mp (hids ident hident).2 ch hmem

theorem IsLoose.mem {ch : Char} (h : IsLoose text) (hch : ch ∈ text) :
    ch = '.' ∨ isScanIdentifierContinue ch = true := by
  obtain h | ⟨front, hfront, rfl⟩ := h
  · exact h.mem hch
  · obtain hch | hch := List.mem_append.mp hch
    · exact hfront.mem hch
    · exact .inl (List.mem_singleton.mp hch)

theorem IsLoose.ne_nil (h : IsLoose text) : text ≠ [] := (isLoose_iff.mp h).1

theorem IsLoose.no_colon (h : IsLoose text) : ':' ∉ text := by
  intro hmem
  obtain hdot | hcontinue := h.mem hmem
  · cases hdot
  · cases hcontinue

theorem IsLoose.no_space (h : IsLoose text) : ∀ ch ∈ text, isSpace ch = false := by
  intro ch hch
  obtain rfl | hcontinue := h.mem hch
  · rfl
  · exact isSpace_of_continue hcontinue

/-- The letters between the places where a text is split. -/
theorem mem_part_splitOn {ch letter : Char} (h : part ∈ text.splitOn ch) (hletter : letter ∈ part) :
    letter ∈ text ∧ letter ≠ ch := by
  induction text generalizing part with
  | nil =>
    rw [List.splitOn_nil, List.mem_singleton] at h
    rw [h] at hletter
    cases hletter
  | cons first text ih =>
    obtain ⟨front, rest, hsplit⟩ := List.exists_cons_of_ne_nil (List.splitOn_ne_nil ch text)
    rw [List.splitOn_cons_eq_if_modifyHead, hsplit] at h
    rw [hsplit] at ih
    split at h
    · obtain rfl | hmem := List.mem_cons.mp h
      · cases hletter
      · exact (ih hmem hletter).imp_left (List.mem_cons_of_mem _)
    · rename_i hne
      rw [List.modifyHead_cons] at h
      obtain rfl | hmem := List.mem_cons.mp h
      · obtain rfl | hletter := List.mem_cons.mp hletter
        · exact ⟨List.mem_cons_self, fun heq => hne (beq_iff_eq.mpr heq)⟩
        · exact (ih List.mem_cons_self hletter).imp_left (List.mem_cons_of_mem _)
      · exact (ih (List.mem_cons_of_mem _ hmem) hletter).imp_left (List.mem_cons_of_mem _)

theorem cleaned_splitOn (text : List Char) :
    (cleaned text).splitOn ':' = ((trimAsciiView text).splitOn ':').map trimAsciiView := by
  refine List.splitOn_intercalate ':' (fun part hpart => ?_) (by simp)
  obtain ⟨whole, hwhole, rfl⟩ := List.mem_map.mp hpart
  exact fun hmem => (mem_part_splitOn hwhole (Trimming.mem_of_mem_trim hmem)).2 rfl

theorem moduleName_iff {component : List Char → Prop} (hcomponent : ∀ x, component x → ':' ∉ x ∧ x ≠ []) :
    ModuleName component allowPartitionOnly moduleName ↔
      match moduleName.splitOn ':' with
      | [primary] => component primary
      | [primary, part] => (primary = [] ∧ allowPartitionOnly = true ∨ component primary) ∧ component part
      | _ => False := by
  constructor
  · intro h
    cases h with
    | plain hprimary =>
      rw [List.splitOn_eq_singleton (hcomponent _ hprimary).1]
      exact hprimary
    | partition hprimary hpart =>
      rw [List.splitOn_append_cons_self_of_not_mem (hcomponent _ hprimary).1,
        List.splitOn_eq_singleton (hcomponent _ hpart).1]
      exact ⟨.inr hprimary, hpart⟩
    | only hallow hpart =>
      rw [← List.nil_append (':' :: _), List.splitOn_append_cons_self_of_not_mem List.not_mem_nil,
        List.splitOn_eq_singleton (hcomponent _ hpart).1]
      exact ⟨.inl ⟨rfl, hallow⟩, hpart⟩
  · have hname : [':'].intercalate (moduleName.splitOn ':') = moduleName := List.intercalate_splitOn ':'
    intro h
    split at h
    · rename_i primary hparts
      rw [hparts] at hname
      rw [← hname, List.intercalate_singleton]
      exact .plain h
    · rename_i primary part hparts
      rw [hparts] at hname
      rw [← hname, List.intercalate_cons_cons, List.intercalate_singleton, List.append_assoc]
      obtain ⟨⟨rfl, hallow⟩ | hprimary, hpart⟩ := h
      · exact .only hallow hpart
      · exact .partition hprimary hpart
    · exact h.elim

theorem IsLoose.component (h : IsLoose text) : ':' ∉ text ∧ text ≠ [] := ⟨h.no_colon, h.ne_nil⟩

theorem IsDotted.component (h : IsDotted text) : ':' ∉ text ∧ text ≠ [] := IsLoose.component (.inl h)

theorem trim_splitOn_single (h : (trimAsciiView text).splitOn ':' = [part]) :
    part = trimAsciiView text ∧ trimAsciiView part = part := by
  have hpart : [':'].intercalate ((trimAsciiView text).splitOn ':') = trimAsciiView text :=
    List.intercalate_splitOn ':'
  rw [h, List.intercalate_singleton] at hpart
  exact ⟨hpart, by rw [hpart]; exact Trimming.trim_trim text⟩

theorem isValidScanModuleComponent_trim (text : List Char) :
    isValidScanModuleComponent (trimAsciiView text) = true ↔ IsLoose (trimAsciiView text) := by
  rw [isValidScanModuleComponent_iff]
  exact iff_of_eq (congrArg IsLoose (Trimming.trim_trim text))

theorem canonicalizeScanModuleName_iff :
    canonicalizeScanModuleName text allowPartitionOnly = some moduleName ↔
      ModuleName IsLoose allowPartitionOnly (cleaned text) ∧ moduleName = cleaned text := by
  rw [moduleName_iff fun _ h => h.component, cleaned_splitOn]
  unfold canonicalizeScanModuleName cleaned
  dsimp only
  split
  · rename_i hempty
    rw [List.isEmpty_iff.mp hempty]
    refine ⟨nofun, fun h => ?_⟩
    exact absurd rfl (IsLoose.ne_nil h.1)
  · split
    · rename_i part hparts
      obtain ⟨hpart, htrim⟩ := trim_splitOn_single hparts
      rw [hparts]
      simp only [List.map_cons, List.map_nil, List.intercalate_singleton, htrim]
      rw [← htrim, ← isValidScanModuleComponent_trim, htrim]
      split
      · rename_i hvalid
        simp [hvalid, eq_comm]
      · rename_i hvalid
        simp [hvalid]
    · rename_i primary part hparts
      rw [hparts]
      simp only [List.map_cons, List.map_nil, List.intercalate_cons_cons, List.intercalate_singleton]
      rw [← isValidScanModuleComponent_trim, ← isValidScanModuleComponent_trim]
      by_cases hpart : trimAsciiView part = [] ∨ isValidScanModuleComponent (trimAsciiView part) = false
      · have hinvalid : isValidScanModuleComponent (trimAsciiView part) = false := by
          obtain hnil | hinvalid := hpart
          · rw [hnil]
            rfl
          · exact hinvalid
        rw [if_pos (by simp [hinvalid])]
        exact ⟨nofun, fun h => by simp [hinvalid] at h⟩
      · obtain ⟨hne, hvalid⟩ := not_or.mp hpart
        rw [Bool.not_eq_false] at hvalid
        rw [if_neg (by simp [hne, hvalid])]
        by_cases hprimary : trimAsciiView primary = []
        · have hinvalid : ¬isValidScanModuleComponent [] = true := by decide
          rw [hprimary, if_pos List.isEmpty_nil]
          split
          · rename_i hallow
            rw [Option.some_inj]
            exact ⟨fun h => ⟨⟨.inl ⟨rfl, hallow⟩, hvalid⟩, h.symm⟩, fun h => h.2.symm⟩
          · rename_i hallow
            simp [hallow, hinvalid]
        · rw [if_neg (by simp [hprimary])]
          split
          · rename_i hprimaryValid
            rw [Option.some_inj, List.append_assoc, List.singleton_append]
            exact ⟨fun h => ⟨⟨.inr hprimaryValid, hvalid⟩, h.symm⟩, fun h => h.2.symm⟩
          · rename_i hprimaryValid
            simp [hprimary, hprimaryValid]
    · rename_i hone htwo
      obtain ⟨first, rest, hsplit⟩ := List.exists_cons_of_ne_nil (List.splitOn_ne_nil ':' (trimAsciiView text))
      match rest, hsplit with
      | [], hsplit => exact absurd hsplit (hone first)
      | [second], hsplit => exact absurd hsplit (htwo first second)
      | second :: third :: rest, hsplit =>
        rw [hsplit]
        exact ⟨nofun, fun h => h.1.elim⟩

-- ---------------------------------------------------------------------------
-- Names of names
-- ---------------------------------------------------------------------------

theorem ModuleName.no_space (h : ModuleName IsLoose allowPartitionOnly moduleName) :
    ∀ ch ∈ moduleName, isSpace ch = false := by
  have hbehind : ∀ {part}, IsLoose part → ∀ ch ∈ ':' :: part, isSpace ch = false := by
    intro part hpart ch hch
    obtain rfl | hch := List.mem_cons.mp hch
    · rfl
    · exact hpart.no_space ch hch
  cases h with
  | plain hprimary => exact hprimary.no_space
  | partition hprimary hpart =>
    intro ch hch
    obtain hch | hch := List.mem_append.mp hch
    · exact hprimary.no_space ch hch
    · exact hbehind hpart ch hch
  | only _ hpart => exact hbehind hpart

theorem cleaned_of_no_space (h : ∀ ch ∈ text, isSpace ch = false) : cleaned text = text := by
  have htext : trimAsciiView text = text := Trimming.trim_of_not h
  have hparts : ((trimAsciiView text).splitOn ':').map trimAsciiView = text.splitOn ':' := by
    rw [htext]
    refine (List.map_congr_left fun part hpart => ?_).trans (List.map_id _)
    exact Trimming.trim_of_not fun ch hch => h ch (mem_part_splitOn hpart hch).1
  rw [cleaned, hparts, List.intercalate_splitOn]

theorem canonicalizeScanModuleName_self (h : canonicalizeScanModuleName text allowPartitionOnly = some moduleName) :
    (∀ ch ∈ moduleName, isSpace ch = false) ∧
      canonicalizeScanModuleName moduleName allowPartitionOnly = some moduleName := by
  obtain ⟨hname, rfl⟩ := canonicalizeScanModuleName_iff.mp h
  have hclean := cleaned_of_no_space hname.no_space
  exact ⟨hname.no_space, canonicalizeScanModuleName_iff.mpr ⟨hclean.symm ▸ hname, hclean.symm⟩⟩

-- ---------------------------------------------------------------------------
-- The dot too many
-- ---------------------------------------------------------------------------

theorem ModuleName.loose (h : ModuleName IsDotted allowPartitionOnly moduleName) :
    ModuleName IsLoose allowPartitionOnly moduleName := by
  cases h with
  | plain hprimary => exact .plain (.inl hprimary)
  | partition hprimary hpart => exact .partition (.inl hprimary) (.inl hpart)
  | only hallow hpart => exact .only hallow (.inl hpart)

theorem IsDotted.not_extra (h : IsDotted part) : ¬IsDotted (part ++ ['.']) := by
  intro hextra
  refine not_isScanIdentifier_nil (isDotted_iff.mp hextra [] ?_)
  rw [h.splitOn_dot]
  exact List.mem_append_right _ List.mem_cons_self

theorem IsDotted.extra (h : IsDotted part) : IsLoose (part ++ ['.']) := .inr ⟨part, h, rfl⟩

theorem ExtraDot.loose (h : ExtraDot allowPartitionOnly moduleName) :
    ModuleName IsLoose allowPartitionOnly moduleName := by
  cases h with
  | plain hprimary => exact .plain hprimary.extra
  | primary hprimary hpart => exact .partition hprimary.extra hpart
  | partition hprimary hpart => exact .partition hprimary hpart.extra
  | only hallow hpart => exact .only hallow hpart.extra

theorem ExtraDot.not_dotted (h : ExtraDot allowPartitionOnly moduleName) :
    ¬ModuleName IsDotted allowPartitionOnly moduleName := by
  rw [moduleName_iff fun _ h => h.component]
  cases h with
  | plain hprimary =>
    rw [List.splitOn_eq_singleton hprimary.extra.no_colon]
    exact hprimary.not_extra
  | primary hprimary hpart =>
    rw [List.splitOn_append_cons_self_of_not_mem hprimary.extra.no_colon, List.splitOn_eq_singleton hpart.no_colon]
    rintro ⟨⟨hnil, -⟩ | hdotted, -⟩
    · exact hprimary.extra.ne_nil hnil
    · exact hprimary.not_extra hdotted
  | partition hprimary hpart =>
    rw [List.splitOn_append_cons_self_of_not_mem hprimary.no_colon,
      List.splitOn_eq_singleton hpart.extra.no_colon]
    exact fun h => hpart.not_extra h.2
  | only hallow hpart =>
    rw [← List.nil_append (':' :: _), List.splitOn_append_cons_self_of_not_mem List.not_mem_nil,
      List.splitOn_eq_singleton hpart.extra.no_colon]
    exact fun h => hpart.not_extra h.2

theorem ModuleName.dotted_or_extra (h : ModuleName IsLoose allowPartitionOnly moduleName) :
    ModuleName IsDotted allowPartitionOnly moduleName ∨ ExtraDot allowPartitionOnly moduleName := by
  cases h with
  | plain hprimary =>
    obtain hdotted | ⟨front, hfront, rfl⟩ := hprimary
    · exact .inl (.plain hdotted)
    · exact .inr (.plain hfront)
  | partition hprimary hpart =>
    obtain hdotted | ⟨front, hfront, rfl⟩ := hprimary
    · obtain hpart | ⟨front, hfront, rfl⟩ := hpart
      · exact .inl (.partition hdotted hpart)
      · exact .inr (.partition (.inl hdotted) hfront)
    · exact .inr (.primary hfront hpart)
  | only hallow hpart =>
    obtain hpart | ⟨front, hfront, rfl⟩ := hpart
    · exact .inl (.only hallow hpart)
    · exact .inr (.only hallow hfront)

theorem isSome_canonicalizeScanModuleName :
    (canonicalizeScanModuleName text allowPartitionOnly).isSome = true ↔
      ModuleName IsLoose allowPartitionOnly (cleaned text) := by
  rw [Option.isSome_iff_exists]
  exact ⟨fun ⟨_, h⟩ => (canonicalizeScanModuleName_iff.mp h).1, fun h => ⟨_, canonicalizeScanModuleName_iff.mpr ⟨h, rfl⟩⟩⟩

/-- Names are accepted by their grammar unless they have a dot too many. -/
theorem accepted_iff_no_extraDot (text : List Char) (allowPartitionOnly : Bool) :
    AcceptedByGrammar text allowPartitionOnly ↔ ¬ExtraDot allowPartitionOnly (cleaned text) := by
  unfold AcceptedByGrammar
  rw [isSome_canonicalizeScanModuleName]
  constructor
  · exact fun h hextra => hextra.not_dotted (h.1.mp hextra.loose)
  · intro hextra
    exact ⟨⟨fun h => h.dotted_or_extra.resolve_right hextra, ModuleName.loose⟩,
      fun _ => canonicalizeScanModuleName_self⟩

/-- `export module a.;` -/
theorem trailingDot_accepted : ¬AcceptedByGrammar "a.".toList false := by
  intro h
  have hname := h.1.mp (by decide)
  rw [moduleName_iff fun _ h => h.component] at hname
  exact not_isScanIdentifier_nil (isDotted_iff.mp hname [] (by decide))

end Gentest.Scan
