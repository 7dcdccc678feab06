import Gentest.Codegen.SpelledTexts
import Gentest.Codegen.SupportTexts

/-!
# Whether a registration holds what was rendered

The passes over a registration are compared with filling its template at once. They agree
exactly when no text of a user spells a placeholder that is replaced after the block the
text stands in.
-/

namespace Gentest.Codegen.RegistrationText

open Substitution

-- ---------------------------------------------------------------------------
-- The passes as runs over the template
-- ---------------------------------------------------------------------------

section Runs

variable {α : Type} {key : α → Char} {embed : Char → α} {insert : Placeholder → List Char → List α}
  (block : Placeholder → List Char)

def firstPasses : List (Placeholder × List Char) :=
  [(.registrationPreamble, block .registrationPreamble), (.wrapperSupportCommon, block .wrapperSupportCommon)]

def frontPasses : List (Placeholder × List Char) :=
  [(.forwardDecls, block .forwardDecls), (.caseCount, block .caseCount), (.traitDecls, block .traitDecls)]

def backPasses : List (Placeholder × List Char) :=
  [(.globalWrapperImpls, block .globalWrapperImpls), (.wrapperImpls, []), (.caseInits, block .caseInits),
    (.fixtureRegistrations, block .fixtureRegistrations), (.registerFn, block .registerFn)]

/-- What holds of every rendered registration: the blocks that no text of a user reaches. -/
structure Rendered : Prop where
  preamble : ∀ x, ¬spelling x <:+: block .registrationPreamble
  support : ∀ x, ¬spelling x <:+: block .wrapperSupportCommon
  common : block .registrationCommon = registrationCommon.fill id spelling
  forwardDecls : block .forwardDecls = []
  caseCount : ∀ x, ¬spelling x <:+: block .caseCount

variable {block}

theorem spelling_infix_nil (x : Placeholder) : ¬spelling x <:+: [] := fun h => by
  cases List.infix_nil.mp h

theorem passes_nodup (block : Placeholder → List Char) :
    ((firstPasses block ++ (frontPasses block ++ backPasses block)).map Prod.fst).Nodup := by
  change List.Nodup [Placeholder.registrationPreamble, .wrapperSupportCommon, .forwardDecls, .caseCount, .traitDecls,
    .globalWrapperImpls, .wrapperImpls, .caseInits, .fixtureRegistrations, .registerFn]
  decide

theorem inserted_ne : ∀ p ∈ (firstPasses block ++ frontPasses block) ++ (backPasses block).dropLast,
    p.1 ≠ .registerFn := by
  simp [firstPasses, frontPasses, backPasses]

theorem first_nodup : ((firstPasses block).map Prod.fst).Nodup :=
  (List.nodup_append.mp (List.map_append ▸ passes_nodup block)).1

theorem first_clean (hblock : Rendered block) : ∀ p ∈ firstPasses block, ∀ x, ¬spelling x <:+: p.2 := by
  intro p hp x
  simp only [firstPasses, List.mem_cons, List.not_mem_nil, or_false] at hp
  rcases hp with rfl | rfl
  · exact hblock.preamble x
  · exact hblock.support x

theorem first_run (hblock : Rendered block) (hkey : ∀ c, key (embed c) = c)
    (hinsert : ∀ h text, (insert h text).map key = text) (textual : Bool) :
    runPasses key spelling insert (firstPasses block)
        ((headerTemplate textual).fill embed fun h => (spelling h).map embed) =
      (headerTemplate textual).fill embed (valueOf embed spelling insert (firstPasses block)) := by
  have hplaced : ∀ p ∈ ([] ++ firstPasses block).dropLast, Placed (headerTemplate textual) spelling p.1 := by
    intro p hp
    obtain rfl := List.mem_singleton.mp hp
    exact placed_header textual nofun
  have hkeeps : (firstPasses block).Pairwise (Keeps (headerTemplate textual) spelling) :=
    List.pairwise_of_forall_mem_list fun p hp q _ _ => first_clean hblock p hp q.1
  have hrun : runPasses key spelling insert (firstPasses block)
      ((headerTemplate textual).fill embed (valueOf embed spelling insert [])) = _ :=
    runPasses_fill (spaced_header textual) hkey hinsert first_nodup hplaced (fun _ _ _ h => nomatch h) hkeeps
  exact hrun

theorem common_pass (hblock : Rendered block) (hkey : ∀ c, key (embed c) = c)
    (hinsert : ∀ h text, (insert h text).map key = text) (textual : Bool) :
    replaceAll key (spelling .registrationCommon) ((block .registrationCommon).map embed)
        ((headerTemplate textual).fill embed (valueOf embed spelling insert (firstPasses block))) =
      (wholeTemplate textual).fill embed (valueOf embed spelling insert (firstPasses block)) := by
  have hvalue : ∀ h ∈ (headerTemplate textual).holes,
      valueOf embed spelling insert (firstPasses block) h = (spelling h).map embed ∨
        (headerTemplate textual).Framed spelling h ∧
          ¬Substitution.Occurs key (spelling .registrationCommon) (valueOf embed spelling insert (firstPasses block) h) := by
    intro h _
    by_cases hfirst : h ∈ (firstPasses block).map Prod.fst
    · obtain ⟨p, hp, rfl⟩ := List.mem_map.mp hfirst
      have hne : p.1 ≠ .registerFn := inserted_ne p (List.mem_append_left _ (List.mem_append_left _ hp))
      refine .inr ⟨(placed_header textual hne).1, ?_⟩
      rw [valueOf_of_mem first_nodup hp, Substitution.Occurs, hinsert]
      exact first_clean hblock p hp _
    · exact .inl (valueOf_of_notMem hfirst)
  have hfragment : (block .registrationCommon).map embed =
      registrationCommon.fill embed (valueOf embed spelling insert (firstPasses block)) := by
    rw [hblock.common, map_fill]
    simp only [registrationCommon, Template.fill, List.flatMap_cons, List.flatMap_nil]
    rfl
  rw [replaceAll_fill (spaced_header textual) hkey rfl hvalue, ← simultaneous_eq, simultaneous, hfragment]
  exact congrArg ((headerTemplate textual).fill embed) (funext fun h => Function.update_apply _ _ _ h)

theorem applyRegistrationCore_back {output front : List α}
    (hfront : front = runPasses key spelling insert (frontPasses block)
      (replaceAll key (spelling .registrationCommon) ((block .registrationCommon).map embed)
        (runPasses key spelling insert (firstPasses block) output)))
    (hglobal : Substitution.Occurs key (spelling .globalWrapperImpls) front) :
    replacePlaceholder key insert .registerFn (block .registerFn) (applyRegistrationCore key embed insert block output) =
      runPasses key spelling insert (backPasses block) front := by
  have happly : applyRegistrationCore key embed insert block output =
      runPasses key spelling insert [(.caseInits, block .caseInits), (.fixtureRegistrations, block .fixtureRegistrations)]
        (if Substitution.Occurs key (spelling .globalWrapperImpls) front then
          replacePlaceholder key insert .wrapperImpls [] (replacePlaceholder key insert .globalWrapperImpls
            (block .globalWrapperImpls) front)
        else replacePlaceholder key insert .wrapperImpls (block .wrapperImpls) front) := by
    subst hfront
    rfl
  rw [happly, if_pos hglobal]
  rfl

theorem registrationBody_eq (hblock : Rendered block) (hkey : ∀ c, key (embed c) = c)
    (hinsert : ∀ h text, (insert h text).map key = text) (textual : Bool) :
    registrationBody key embed insert block textual =
      runPasses key spelling insert (frontPasses block ++ backPasses block)
        ((wholeTemplate textual).fill embed (valueOf embed spelling insert (firstPasses block))) := by
  -- the placeholder of the wrappers still stands when it is looked for
  have hglobal : Substitution.Occurs key (spelling .globalWrapperImpls) (runPasses key spelling insert (frontPasses block)
      ((wholeTemplate textual).fill embed (valueOf embed spelling insert (firstPasses block)))) := by
    have hfront : runPasses key spelling insert (frontPasses block)
        ((wholeTemplate textual).fill embed (valueOf embed spelling insert (firstPasses block))) =
          (wholeTemplate textual).fill embed (valueOf embed spelling insert (firstPasses block ++ frontPasses block)) := by
      have hnodup : ((firstPasses block ++ frontPasses block).map Prod.fst).Nodup := by
        have hall := passes_nodup block
        rw [← List.append_assoc, List.map_append] at hall
        exact (List.nodup_append.mp hall).1
      have hplaced : ∀ p ∈ (firstPasses block ++ frontPasses block).dropLast, Placed (wholeTemplate textual) spelling p.1 :=
        fun p hp => placed_whole textual (inserted_ne p (List.mem_append_left _ (List.dropLast_subset _ hp)))
      refine runPasses_fill (spaced_whole textual) hkey hinsert hnodup hplaced
        (fun q _ p hp _ => first_clean hblock p hp q.1) ?_
      refine List.pairwise_cons.mpr ⟨fun q _ _ => ?_, List.pairwise_cons.mpr ⟨fun q _ _ => hblock.caseCount q.1,
        List.pairwise_singleton _ _⟩⟩
      exact hblock.forwardDecls ▸ spelling_infix_nil q.1
    rw [hfront]
    refine occurs_fill_of_hole hkey (by simp [whole_holes]) (valueOf_of_notMem ?_)
    simp [firstPasses, frontPasses]
  rw [registrationBody, startBody hkey, runPasses, List.foldl_append]
  refine applyRegistrationCore_back ?_ hglobal
  rw [first_run hblock hkey hinsert, common_pass hblock hkey hinsert]
  rfl

theorem whole_value (embed : Char → α) (insert : Placeholder → List Char → List α) (textual : Bool) :
    (wholeTemplate textual).fill embed
        (valueOf embed spelling insert (firstPasses block ++ (frontPasses block ++ backPasses block))) =
      simultaneous embed (fun h => insert h (block h)) textual := by
  have hpasses : ∀ h ∈ (wholeTemplate textual).holes,
      (h, block h) ∈ firstPasses block ++ (frontPasses block ++ backPasses block) := by
    simp [whole_holes, firstPasses, frontPasses, backPasses]
  rw [simultaneous_eq]
  exact fill_congr fun h hh => valueOf_of_mem (passes_nodup block) (hpasses h hh)

end Runs

-- ---------------------------------------------------------------------------
-- Faithful substitution
-- ---------------------------------------------------------------------------

/-- The text is the template filled at once, and every letter of it comes from the place
in its block where the filled template has it: no block is inserted twice, replaced or
erased. -/
structure Faithful (block : Placeholder → List Char) (textual : Bool) : Prop where
  text : registrationBody id id (fun _ text => text) block textual = simultaneous id block textual
  origin : registrationBody Prod.fst plain marked block textual =
    simultaneous plain (fun h => marked h (block h)) textual

/-- No block spells a placeholder that is replaced after it is put in. -/
structure BlocksKept (block : Placeholder → List Char) : Prop where
  traits : ∀ x ∈ [Placeholder.globalWrapperImpls, .wrapperImpls, .caseInits, .fixtureRegistrations, .registerFn],
    ¬spelling x <:+: block .traitDecls
  wrappers : ∀ x ∈ [Placeholder.wrapperImpls, .caseInits, .fixtureRegistrations, .registerFn],
    ¬spelling x <:+: block .globalWrapperImpls
  entries : ∀ x ∈ [Placeholder.fixtureRegistrations, .registerFn], ¬spelling x <:+: block .caseInits
  registrations : ¬spelling .registerFn <:+: block .fixtureRegistrations

variable {block : Placeholder → List Char}

theorem keeps_iff (hblock : Rendered block) (textual : Bool) :
    (frontPasses block ++ backPasses block).Pairwise (Keeps (wholeTemplate textual) spelling) ↔ BlocksKept block := by
  have hforward : ∀ x, ¬spelling x <:+: block .forwardDecls := fun x => hblock.forwardDecls ▸ spelling_infix_nil x
  have hcount := hblock.caseCount
  simp only [frontPasses, backPasses, List.cons_append, List.nil_append, List.pairwise_cons, List.forall_mem_cons,
    Keeps, whole_holes]
  constructor
  · intro h
    refine ⟨?_, ?_, ?_, ?_⟩ <;> simp [h]
  · rintro ⟨htraits, hwrappers, hentries, hregistrations⟩
    simp only [List.forall_mem_cons] at htraits hwrappers hentries
    simp [hforward, hcount, htraits, hwrappers, hentries, hregistrations]

theorem faithful_iff_blocksKept (hblock : Rendered block) (textual : Bool) :
    Faithful block textual ↔ BlocksKept block := by
  have hplaced : ∀ p ∈ (firstPasses block ++ (frontPasses block ++ backPasses block)).dropLast,
      Placed (wholeTemplate textual) spelling p.1 := fun p hp => placed_whole textual (inserted_ne p hp)
  have hfirst : ∀ q ∈ frontPasses block ++ backPasses block, ∀ p ∈ firstPasses block,
      Keeps (wholeTemplate textual) spelling p q := fun q _ p hp _ => first_clean hblock p hp q.1
  rw [← keeps_iff hblock textual]
  constructor
  · rintro ⟨-, horigin⟩
    rw [registrationBody_eq hblock (fun _ => rfl) marked_fst, ← whole_value plain marked] at horigin
    exact (keeps_of_runPasses (spaced_whole textual) (passes_nodup block) hplaced horigin).2
  · intro hkeeps
    constructor
    · have hkey : ∀ c : Char, id (id c) = c := fun _ => rfl
      have hinsert : ∀ (_ : Placeholder) (text : List Char), text.map id = text := fun _ => List.map_id
      rw [registrationBody_eq hblock hkey hinsert,
        runPasses_fill (spaced_whole textual) hkey hinsert (passes_nodup block) hplaced hfirst hkeeps, whole_value]
    · rw [registrationBody_eq hblock (fun _ => rfl) marked_fst,
        runPasses_fill (spaced_whole textual) (fun _ => rfl) marked_fst (passes_nodup block) hplaced hfirst hkeeps, whole_value]

-- ---------------------------------------------------------------------------
-- Rendered registrations
-- ---------------------------------------------------------------------------

section Registration

variable (texts : SupportTexts) (renderWrappers : List TestCaseInfo → List Char) (cases : List TestCaseInfo)
  (fixtures : List FixtureDeclInfo) (hasMocks : Bool) (registerFn : List Char)

theorem rendered : Rendered (renderedBlocks texts renderWrappers cases fixtures hasMocks registerFn) := by
  refine ⟨fun x => ?_, fun x => ?_, rfl, rfl, fun x => not_infix_of_notMem (brace_notMem_toString cases.length)⟩
  · change ¬spelling x <:+: if _ then texts.preambleFull else texts.preambleLight
    split
    · exact texts.clean _ (by simp) x
    · exact texts.clean _ (by simp) x
  · change ¬spelling x <:+: if _ then texts.wrapperSupport else []
    split
    · exact texts.clean _ (by simp) x
    · exact spelling_infix_nil x

/-- No text of a user, and not the code of the wrappers, spells a placeholder that is
replaced after the block that the text stands in. -/
structure TextsKept (cases : List TestCaseInfo) (fixtures : List FixtureDeclInfo) (wrappers : List Char) : Prop where
  traits : ∀ test ∈ cases, ∀ text ∈ test.tags ++ test.requirements,
    ∀ x ∈ [Placeholder.globalWrapperImpls, .wrapperImpls, .caseInits, .fixtureRegistrations, .registerFn],
      ¬spelling x <:+: text.toList
  wrappers : ∀ x ∈ [Placeholder.wrapperImpls, .caseInits, .fixtureRegistrations, .registerFn],
    ¬spelling x <:+: wrappers
  entries : ∀ test ∈ cases, ∀ text ∈ entryTexts test,
    ∀ x ∈ [Placeholder.fixtureRegistrations, .registerFn], ¬spelling x <:+: text.toList
  registrations : ∀ fx ∈ fixtures, ∀ text ∈ registrationTexts fx, ¬spelling .registerFn <:+: text.toList

theorem infix_caseInits {x : Placeholder} :
    spelling x <:+: renderedBlocks texts renderWrappers cases fixtures hasMocks registerFn .caseInits ↔
      ∃ test ∈ cases, ∃ text ∈ entryTexts test, spelling x <:+: text.toList := by
  change spelling x <:+: (if cases = [] then _ else renderCaseEntries cases) ↔ _
  split
  case isTrue hempty =>
    subst hempty
    refine iff_of_false ?_ (by simp)
    rw [String.toList_ofList]
    exact not_spelled_of_not_opens rfl x
  case isFalse => exact infix_renderCaseEntries cases

theorem blocksKept_iff : BlocksKept (renderedBlocks texts renderWrappers cases fixtures hasMocks registerFn) ↔
    TextsKept cases fixtures (renderWrappers cases) := by
  have htraits : ∀ x, spelling x <:+: renderedBlocks texts renderWrappers cases fixtures hasMocks registerFn .traitDecls ↔
      ∃ test ∈ cases, ∃ text ∈ test.tags ++ test.requirements, spelling x <:+: text.toList :=
    fun x => infix_renderTraitArrays cases
  have hregistrations : ∀ x, spelling x <:+:
      renderedBlocks texts renderWrappers cases fixtures hasMocks registerFn .fixtureRegistrations ↔
        ∃ fx ∈ fixtures, ∃ text ∈ registrationTexts fx, spelling x <:+: text.toList :=
    fun x => infix_renderFixtureRegistrations fixtures
  constructor
  · intro h
    refine ⟨fun test htest text htext x hx hwithin => ?_, h.wrappers, fun test htest text htext x hx hwithin => ?_,
      fun fx hfx text htext hwithin => ?_⟩
    · exact h.traits x hx ((htraits x).mpr ⟨test, htest, text, htext, hwithin⟩)
    · exact h.entries x hx ((infix_caseInits ..).mpr ⟨test, htest, text, htext, hwithin⟩)
    · exact h.registrations ((hregistrations .registerFn).mpr ⟨fx, hfx, text, htext, hwithin⟩)
  · intro h
    refine ⟨fun x hx hwithin => ?_, h.wrappers, fun x hx hwithin => ?_, fun hwithin => ?_⟩
    · obtain ⟨test, htest, text, htext, hspelled⟩ := (htraits x).mp hwithin
      exact h.traits test htest text htext x hx hspelled
    · obtain ⟨test, htest, text, htext, hspelled⟩ := (infix_caseInits ..).mp hwithin
      exact h.entries test htest text htext x hx hspelled
    · obtain ⟨fx, hfx, text, htext, hspelled⟩ := (hregistrations .registerFn).mp hwithin
      exact h.registrations fx hfx text htext hspelled

theorem textsKept_of_faithful {textual : Bool}
    (h : Faithful (renderedBlocks texts renderWrappers cases fixtures hasMocks registerFn) textual) :
    TextsKept cases fixtures (renderWrappers cases) :=
  (blocksKept_iff ..).mp ((faithful_iff_blocksKept (rendered ..) textual).mp h)

/-- A registration is filled in faithfully exactly when no text of a user spells a
placeholder that is still to be replaced. -/
theorem faithful_iff_textsKept (textual : Bool) :
    Faithful (renderedBlocks texts renderWrappers cases fixtures hasMocks registerFn) textual ↔
      TextsKept cases fixtures (renderWrappers cases) :=
  ⟨fun h => textsKept_of_faithful _ _ _ _ _ _ h, fun h =>
    (faithful_iff_blocksKept (rendered ..) textual).mpr ((blocksKept_iff ..).mpr h)⟩

/-- The wrapper of the test `demo::t`. -/
def freeTestWrapper : List String :=
  ["static void kCaseInvoke_0(void* ctx_) \x7b", "    (void)ctx_;", "    static_cast<void>(::demo::t());", "\x7d", ""]

theorem freeTestWrapper_closed : freeTestWrapper.all closed = true := by
  unfold freeTestWrapper
  repeat refine all_closed_cons rfl ?_
  rfl

/-- A requirement may spell a placeholder that has been replaced before it is put in. -/
theorem faithful_with_requirement :
    Faithful (renderedBlocks templateTexts (fun _ => textOf freeTestWrapper)
      [{ qualifiedName := "demo::t", displayName := "t", filename := "a.cpp",
         requirements := ["\x7b\x7bCASE_COUNT\x7d\x7d"] }] [] false "register_tu_0000".toList) true := by
  refine (faithful_iff_textsKept _ _ _ _ _ _ _).mpr ⟨?_, ?_, ?_, ?_⟩
  · intro test htest text htext x hx hwithin
    obtain rfl := List.mem_singleton.mp htest
    obtain rfl := List.mem_singleton.mp htext
    have hcount : "\x7b\x7bCASE_COUNT\x7d\x7d".toList = spelling .caseCount ++ [] := by
      unfold spelling Placeholder.name
      repeat rw [String.toList_ofList]
      rfl
    rw [hcount] at hwithin
    obtain rfl := spelling_infix_spelling rfl hwithin
    exact absurd hx (by decide)
  · exact fun x _ => not_spelled_of_not_opens (opens_textOf freeTestWrapper_closed) x
  · intro test htest text htext x _
    obtain rfl := List.mem_singleton.mp htest
    refine not_spelled_of_not_opens ?_ x
    have htexts : text ∈ ["t", "a.cpp", "", "", "", ""] := htext
    simp only [List.mem_cons, List.not_mem_nil, or_false] at htexts
    rcases htexts with rfl | rfl | rfl | rfl | rfl | rfl <;> (rw [String.toList_ofList]; rfl)
  · exact List.forall_mem_nil _

/-- With a requirement that spells the placeholder of the entries, these are put into its
literal too. -/
theorem not_faithful_of_requirement : ¬∃ (texts : SupportTexts) (renderWrappers : List TestCaseInfo → List Char),
    Faithful (renderedBlocks texts renderWrappers
      [{ qualifiedName := "demo::t", displayName := "t", filename := "a.cpp",
         requirements := ["\x7b\x7bCASE_INITS\x7d\x7d"] }] [] false "register_tu_0000".toList) true := by
  rintro ⟨texts, renderWrappers, h⟩
  have hrequirement := (textsKept_of_faithful _ _ _ _ _ _ h).traits _ (List.mem_singleton_self _) _
    (List.mem_append_right _ (List.mem_singleton_self _)) .caseInits (by simp)
  refine hrequirement ?_
  unfold spelling Placeholder.name
  repeat rw [String.toList_ofList]
  exact List.infix_rfl

end Registration

end Gentest.Codegen.RegistrationText
