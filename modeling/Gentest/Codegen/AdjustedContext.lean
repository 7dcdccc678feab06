import Gentest.Codegen.AdjustedCommand

/-!
# The scan keeps the context

Two passes go over the arguments of a command: one rewrites them for the host's
clang, one removes what is not semantic. `InPlace` runs the two side by side and asks
at each place that an argument which the second pass keeps is passed on as it stands
and is kept there again. Then the tokens of the command are found in order, whatever
the tool puts in front. The check fails otherwise, unless something else supplies the
lost token.
-/

namespace Gentest.Codegen

open Arguments

-- ---------------------------------------------------------------------------
-- The check is a subsequence
-- ---------------------------------------------------------------------------

theorem missingToken_eq_none_iff {tokens adjusted : List String} :
    missingToken tokens adjusted = none ↔ tokens.Sublist adjusted := by
  induction adjusted generalizing tokens with
  | nil => cases tokens <;> simp [missingToken]
  | cons arg adjusted ih =>
    cases tokens with
    | nil => simp [missingToken]
    | cons token tokens =>
      by_cases heq : arg = token
      · simp [missingToken, heq, ih]
      · have hskip : missingToken (token :: tokens) (arg :: adjusted) = missingToken (token :: tokens) adjusted := by
          simp [missingToken, heq]
        rw [hskip, ih, List.sublist_cons_iff]
        simp [Ne.symm heq]

-- ---------------------------------------------------------------------------
-- The compiler of the scan is a clang driver
-- ---------------------------------------------------------------------------

section

variable {host : Host} {settings : ScanSettings}

attribute [local grind =] isClangLikeCompiler resolveProgramInvocationPath resolvedDefaultClangCompiler
  resolveClangCompilerPath compilerForResourceDirProbe selectClangToolchainCompiler

theorem ne_empty_of_isClangLikeCompiler {path : String} (h : isClangLikeCompiler path = true) : path ≠ "" := by
  rintro rfl
  exact absurd h (by decide)

theorem resolveProgramInvocationPath_clang {program : String} (h : isClangLikeCompiler program = true) :
    isClangLikeCompiler (resolveProgramInvocationPath host program) = true := by
  rw [resolveProgramInvocationPath, if_neg (ne_empty_of_isClangLikeCompiler h)]
  split
  · exact h
  · cases hfound : host.findProgramByName program with
    | none => exact h
    | some path =>
      rw [Option.getD_some, isClangLikeCompiler, host.basename_found hfound]
      exact h

theorem resolvedDefaultClangCompiler_clang {path : String}
    (h : resolvedDefaultClangCompiler host settings = some path) : isClangLikeCompiler path = true := by
  unfold resolvedDefaultClangCompiler at h
  split at h
  · cases h
  · simp only [Option.ite_none_right_eq_some, Bool.and_eq_true, Option.some.injEq] at h
    obtain ⟨⟨-, hclang⟩, rfl⟩ := h
    exact hclang

theorem getD_resolvedDefaultClangCompiler_clang {selected : String} (h : isClangLikeCompiler selected = true) :
    isClangLikeCompiler ((resolvedDefaultClangCompiler host settings).getD selected) = true := by
  cases hdefault : resolvedDefaultClangCompiler host settings with
  | none => exact h
  | some path => exact resolvedDefaultClangCompiler_clang hdefault

theorem resolveClangCompilerPath_clang {candidate : String} {explicitPath : Bool}
    (h : isClangLikeCompiler candidate = true) :
    isClangLikeCompiler (resolveClangCompilerPath host settings candidate explicitPath) = true := by
  have hselected : isClangLikeCompiler (resolveProgramInvocationPath host candidate) = true :=
    resolveProgramInvocationPath_clang h
  simp only [resolveClangCompilerPath]
  split
  · exact getD_resolvedDefaultClangCompiler_clang hselected
  · split
    · exact getD_resolvedDefaultClangCompiler_clang hselected
    · exact hselected

theorem compilerForResourceDirProbe_clang (settings : ScanSettings) (commandLine : List String) :
    isClangLikeCompiler (compilerForResourceDirProbe settings commandLine) = true := by
  unfold compilerForResourceDirProbe
  split
  · split
    · assumption
    · exact settings.default_clang
  · exact settings.default_clang

theorem selectClangToolchainCompiler_clang (host : Host) (settings : ScanSettings) (commandLine : List String) (compilerArg : String) :
    isClangLikeCompiler (selectClangToolchainCompiler host settings commandLine compilerArg) = true := by
  simp only [selectClangToolchainCompiler]
  split
  · rename_i hexplicit
    exact resolveProgramInvocationPath_clang (settings.host_clang.resolve_left hexplicit)
  · split
    · rename_i hforced
      simp only [Bool.and_eq_true] at hforced
      exact hforced.2
    · split
      · have hprobed := compilerForResourceDirProbe_clang settings commandLine
        rw [if_neg (ne_empty_of_isClangLikeCompiler hprobed)]
        exact hprobed
      · rename_i hclang
        exact resolveClangCompilerPath_clang (by simpa using hclang)

end

-- ---------------------------------------------------------------------------
-- The two passes side by side
-- ---------------------------------------------------------------------------

section

variable (host : Host) (settings : ScanSettings) (directory source : String)

def rewritten (arg : String) (rest : List String) : Option String :=
  if arg = "--" then none
  else if arg = "-fmodule-file" || arg = "-fprebuilt-module-path" then
    (rest.head?.filter canBeSeparateFlagValue).map fun next => arg ++ "=" ++ next
  else if isSeparateValueModuleFlag arg || isMsvcModuleMappingValueFlag arg || isJoinedMsvcModuleMappingFlag arg ||
      shouldStripCompdbArg arg true then none
  else some (respell host settings source arg)

/-- Nothing stands in the place of an argument that was consumed as a value. -/
def passed (skip : Bool) (arg : String) (rest : List String) : Option String :=
  if skip then none else rewritten host settings source arg rest

def consumesNext (skip : Bool) (arg : String) (rest : List String) : Bool :=
  !skip && if isSeparateValueModuleFlag arg then rest.head?.any canBeSeparateFlagValue
    else isMsvcModuleMappingValueFlag arg && rest.head?.any canBeMappingValue

def isLastSeparator (moved : String → Bool) (arg : String) (rest : List String) : Bool :=
  arg = "--" &&
    match rest with
    | [input] => moved input && rewritten host settings source input [] = some input
    | _ => false

/-- Both passes at each place of the arguments: `skip` is the state of the first one,
`here` that of the second one, `there` the state of the second one on what the first
one has passed on. An input that is `moved` has to be one for the second pass too;
when it is moved, a separator is written again in front of it (`closing`). -/
def InPlace (moved : String → Bool) (closing : Bool) : Bool → Option Value → Option Value → List String → Prop
  | _, _, _, [] => True
  | skip, here, there, arg :: rest =>
    (Reading.staysAt (semanticReading host directory source) here arg = true →
      passed host settings source skip arg rest = some arg ∧
          Reading.staysAt (semanticReading host directory source) there arg = true ∨
        closing = true ∧ isLastSeparator host settings source moved arg rest = true) ∧
    (∀ next ∈ passed host settings source skip arg rest, moved next = true →
      there = none ∧ semanticReading host directory source next = .drop) ∧
    InPlace moved closing (consumesNext skip arg rest) (Reading.nextAt (semanticReading host directory source) here arg)
      ((passed host settings source skip arg rest).elim there
        (Reading.nextAt (semanticReading host directory source) there)) rest

instance instDecidableInPlace (moved : String → Bool) (closing skip : Bool) (here there : Option Value)
    (args : List String) : Decidable (InPlace host settings directory source moved closing skip here there args) :=
  match args with
  | [] => inferInstanceAs (Decidable True)
  | arg :: rest =>
    have := instDecidableInPlace moved closing (consumesNext skip arg rest)
      (Reading.nextAt (semanticReading host directory source) here arg)
      ((passed host settings source skip arg rest).elim there
        (Reading.nextAt (semanticReading host directory source) there)) rest
    inferInstanceAs (Decidable ((_ = true → _ = some arg ∧ _ = true ∨ closing = true ∧ _ = true) ∧
      (∀ next ∈ passed host settings source skip arg rest, moved next = true → there = none ∧ _ = Reading.drop) ∧ _))

end

section

variable {host : Host} {settings : ScanSettings} {directory source arg : String} {args rest : List String}
  {moved : String → Bool} {closing skip : Bool} {here there : Option Value}

attribute [local grind =] respell rewriteArguments rewritten passed consumesNext isLastSeparator

theorem rewriteArguments_cons (hshell : isShellControlToken arg = false) :
    rewriteArguments host settings source true skip (arg :: rest) =
      (passed host settings source skip arg rest).toList ++
        rewriteArguments host settings source true (consumesNext skip arg rest) rest := by
  cases skip with
  | true => rfl
  | false =>
    by_cases hdashes : arg = "--"
    · subst hdashes
      rfl
    by_cases hpair : arg = "-fmodule-file" ∨ arg = "-fprebuilt-module-path"
    · have hseparate : isSeparateValueModuleFlag arg = true := by rcases hpair with rfl | rfl <;> decide
      cases rest with
      | nil => simp [rewriteArguments, passed, rewritten, hdashes, hshell, hpair]
      | cons next rest =>
        cases hvalue : canBeSeparateFlagValue next <;>
          simp [rewriteArguments, passed, rewritten, consumesNext, hdashes, hshell, hpair, hseparate, hvalue,
            Option.filter]
    cases hseparate : isSeparateValueModuleFlag arg with
    | true => simp [rewriteArguments, passed, rewritten, consumesNext, hdashes, hshell, hpair, hseparate]
    | false =>
      cases hmapping : isMsvcModuleMappingValueFlag arg with
      | true => simp [rewriteArguments, passed, rewritten, consumesNext, hdashes, hshell, hpair, hseparate, hmapping]
      | false =>
        by_cases hremoved : isJoinedMsvcModuleMappingFlag arg = true ∨ shouldStripCompdbArg arg true = true
        · rcases hremoved with hremoved | hremoved <;>
            simp [rewriteArguments, passed, rewritten, consumesNext, hdashes, hshell, hpair, hseparate, hmapping, hremoved]
        · simp only [not_or, Bool.not_eq_true] at hremoved
          simp [rewriteArguments, passed, rewritten, consumesNext, hdashes, hshell, hpair, hseparate, hmapping, hremoved]

theorem keep_of_staysAt (hhere : here ≠ some .kept)
    (h : Reading.staysAt (semanticReading host directory source) here arg = true) :
    here = none ∧ semanticReading host directory source arg = .keep := by
  rcases here with _ | value
  · refine ⟨rfl, ?_⟩
    cases hreading : semanticReading host directory source arg with
    | keep => rfl
    | keepWithNext => exact absurd hreading semanticReading_ne_keepWithNext
    | drop | dropWithNext => simp [Reading.staysAt, Reading.stays, hreading] at h
  · cases value with
    | kept => exact absurd rfl hhere
    | dropped => cases h

theorem nextAt_ne_kept : Reading.nextAt (semanticReading host directory source) here arg ≠ some .kept := by
  rcases here with _ | value
  · cases hreading : semanticReading host directory source arg with
    | keepWithNext => exact absurd hreading semanticReading_ne_keepWithNext
    | keep | drop | dropWithNext => simp [Reading.nextAt, Reading.next, hreading]
  · simp [Reading.nextAt]

/-- The tokens in order among those that are passed on, or with the separator that
stands in front of the moved input. -/
theorem InPlace.left_sublist (h : InPlace host settings directory source moved closing skip here there args)
    (hhere : here ≠ some .kept) (hshell : ∀ arg ∈ args, isShellControlToken arg = false) :
    (left (semanticReading host directory source) here args).Sublist
        (left (semanticReading host directory source) there (rewriteArguments host settings source true skip args)) ∨
      closing = true ∧ semanticReading host directory source "--" = .keep ∧
        (∃ input ∈ rewriteArguments host settings source true skip args, moved input = true) ∧
        after (semanticReading host directory source) there (rewriteArguments host settings source true skip args) =
          none ∧
        (left (semanticReading host directory source) here args).Sublist
          (left (semanticReading host directory source) there
            (rewriteArguments host settings source true skip args) ++ ["--"]) := by
  induction args generalizing skip here there with
  | nil => exact .inl (by simp)
  | cons arg rest ih =>
    obtain ⟨hkeep, hmoved, hrest⟩ := h
    have ihrest := ih hrest nextAt_ne_kept fun a ha => hshell a (List.mem_cons_of_mem arg ha)
    cases hstays : Reading.staysAt (semanticReading host directory source) here arg with
    | true =>
      rcases hkeep hstays with ⟨hpassed, hthere⟩ | ⟨hclosing, hlast⟩
      · rw [rewriteArguments_cons (hshell arg List.mem_cons_self), left_cons_of_staysAt hstays, hpassed,
          Option.toList_some, List.singleton_append, left_cons_of_staysAt hthere, after_cons]
        rw [hpassed] at ihrest
        rcases ihrest with ihrest | ⟨hclosing, hdashes, ⟨input, hinput, hmove⟩, hafter, ihrest⟩
        · exact .inl (ihrest.cons_cons arg)
        · exact .inr ⟨hclosing, hdashes, ⟨input, List.mem_cons_of_mem arg hinput, hmove⟩, hafter,
            ihrest.cons_cons arg⟩
      · -- the separator is not passed on; the input behind it is
        obtain ⟨rfl, hdashes⟩ := keep_of_staysAt hhere hstays
        obtain ⟨input, rfl, rfl, hmove, hinput⟩ : ∃ input, arg = "--" ∧ rest = [input] ∧ moved input = true ∧
            rewritten host settings source input [] = some input := by
          unfold isLastSeparator at hlast
          simp only [Bool.and_eq_true, decide_eq_true_eq] at hlast
          obtain ⟨rfl, hlast⟩ := hlast
          split at hlast
          · simp only [Bool.and_eq_true, decide_eq_true_eq] at hlast
            exact ⟨_, rfl, rfl, hlast⟩
          · cases hlast
        have hskip : consumesNext skip "--" [input] = false := by cases skip <;> rfl
        have hnone : passed host settings source skip "--" [input] = none := by cases skip <;> rfl
        have hpassed : passed host settings source false input [] = some input := hinput
        have hinputShell : isShellControlToken input = false := hshell input (by simp)
        rw [hskip, hnone] at hrest
        obtain ⟨rfl, hdrop⟩ := hrest.2.1 input hpassed hmove
        have hlist : rewriteArguments host settings source true skip ["--", input] = [input] := by
          rw [rewriteArguments_cons (hshell "--" List.mem_cons_self), hskip, hnone, rewriteArguments_cons hinputShell,
            hpassed]
          simp [rewriteArguments]
        rw [hlist, left_keep hdashes, left_drop hdrop]
        exact .inr ⟨hclosing, hdashes, ⟨input, by simp, hmove⟩, by simp [after, hdrop, Reading.next], by simp⟩
    | false =>
      rw [rewriteArguments_cons (hshell arg List.mem_cons_self), left_cons_of_not_staysAt hstays]
      cases hpassed : passed host settings source skip arg rest with
      | none =>
        rw [hpassed] at ihrest
        exact ihrest
      | some next =>
        rw [hpassed] at ihrest
        rw [Option.toList_some, List.singleton_append, after_cons]
        rcases ihrest with ihrest | ⟨hclosing, hdashes, ⟨input, hinput, hmove⟩, hafter, ihrest⟩
        · exact .inl (ihrest.trans left_sublist_cons)
        · exact .inr ⟨hclosing, hdashes, ⟨input, List.mem_cons_of_mem next hinput, hmove⟩, hafter,
            ihrest.trans (left_sublist_cons.append_right _)⟩

theorem InPlace.aside (h : InPlace host settings directory source moved closing skip here there args)
    (hshell : ∀ arg ∈ args, isShellControlToken arg = false) :
    Aside (semanticReading host directory source) moved there
      (rewriteArguments host settings source true skip args) := by
  induction args generalizing skip here there with
  | nil =>
    rw [rewriteArguments]
    trivial
  | cons arg rest ih =>
    obtain ⟨-, hmoved, hrest⟩ := h
    have ihrest := ih hrest fun a ha => hshell a (List.mem_cons_of_mem arg ha)
    rw [rewriteArguments_cons (hshell arg List.mem_cons_self)]
    cases hpassed : passed host settings source skip arg rest with
    | none =>
      rw [hpassed] at ihrest
      exact ihrest
    | some next =>
      rw [hpassed] at ihrest
      exact ⟨hmoved next hpassed, ihrest⟩

-- ---------------------------------------------------------------------------
-- Where each token has one origin
-- ---------------------------------------------------------------------------

theorem count_rewriteArguments_le {token : String} (hshell : ∀ arg ∈ args, isShellControlToken arg = false)
    (h : ∀ arg rest, arg :: rest <:+ args → rewritten host settings source arg rest = some token → arg = token) :
    (rewriteArguments host settings source true skip args).count token ≤ args.count token := by
  induction args generalizing skip with
  | nil => simp [rewriteArguments]
  | cons arg rest ih =>
    have ihrest := @ih (consumesNext skip arg rest) (fun a ha => hshell a (List.mem_cons_of_mem arg ha))
      fun a more hmore => h a more (hmore.trans (List.suffix_cons arg rest))
    rw [rewriteArguments_cons (hshell arg List.mem_cons_self), List.count_append, List.count_cons]
    cases hpassed : passed host settings source skip arg rest with
    | none =>
      rw [Option.toList_none, List.count_nil]
      omega
    | some next =>
      rw [Option.toList_some, List.count_singleton]
      have hrewritten : rewritten host settings source arg rest = some next := by
        cases skip with
        | true => cases hpassed
        | false => exact hpassed
      by_cases hnext : next = token
      · subst hnext
        obtain rfl := h arg rest (List.suffix_refl _) hrewritten
        simp
        omega
      · simp [hnext]
        omega

theorem count_left_passed {token : String} {more : List String}
    (h : passed host settings source skip arg rest = some token → arg = token) :
    (left (semanticReading host directory source) there
        ((passed host settings source skip arg rest).toList ++ more)).count token =
      (left (semanticReading host directory source) ((passed host settings source skip arg rest).elim there
        (Reading.nextAt (semanticReading host directory source) there)) more).count token +
        if passed host settings source skip arg rest = some arg ∧
          Reading.staysAt (semanticReading host directory source) there arg = true ∧ arg = token then 1 else 0 := by
  cases hpassed : passed host settings source skip arg rest with
  | none => simp
  | some next =>
    rw [Option.toList_some, List.singleton_append, count_left_cons, Option.elim_some, Nat.add_left_cancel_iff]
    by_cases hnext : next = token
    · obtain rfl := h (hnext ▸ hpassed)
      simp [hnext]
    · have hnot : ¬(some next = some arg ∧
          Reading.staysAt (semanticReading host directory source) there arg = true ∧ arg = token) := by
        rintro ⟨heq, -, rfl⟩
        exact hnext (Option.some.inj heq)
      rw [if_neg hnot, if_neg fun h => hnext h.2]

/-- A token that stands as often among the arguments as it is kept cannot be lost at
one place and gained at another. -/
theorem inPlace_of_count {tokens : List String} (hshell : ∀ arg ∈ args, isShellControlToken arg = false)
    (hmoved : ∀ arg, moved arg = false)
    (hmem : ∀ token ∈ left (semanticReading host directory source) here args, token ∈ tokens)
    (halone : ∀ token ∈ tokens, args.count token ≤ (left (semanticReading host directory source) here args).count token)
    (horigin : ∀ token ∈ tokens, ∀ arg rest, arg :: rest <:+ args →
      rewritten host settings source arg rest = some token → arg = token)
    (hcount : ∀ token ∈ tokens, (left (semanticReading host directory source) here args).count token ≤
      (left (semanticReading host directory source) there (rewriteArguments host settings source true skip args)).count
        token) :
    InPlace host settings directory source moved closing skip here there args := by
  induction args generalizing skip here there with
  | nil => trivial
  | cons arg rest ih =>
    have hargShell := hshell arg List.mem_cons_self
    have hrestShell : ∀ a ∈ rest, isShellControlToken a = false := fun a ha => hshell a (List.mem_cons_of_mem arg ha)
    have hrestOrigin : ∀ token ∈ tokens, ∀ a more, a :: more <:+ rest →
        rewritten host settings source a more = some token → a = token :=
      fun token htoken a more hmore => horigin token htoken a more (hmore.trans (List.suffix_cons arg rest))
    have hpass : ∀ token ∈ tokens, passed host settings source skip arg rest = some token → arg = token := by
      intro token htoken hpassed
      cases skip with
      | true => cases hpassed
      | false => exact horigin token htoken arg rest (List.suffix_refl _) hpassed
    have hkept : ∀ token ∈ tokens, arg = token →
        Reading.staysAt (semanticReading host directory source) here arg = true := by
      rintro token htoken rfl
      have hle := halone arg htoken
      have hsub : (left (semanticReading host directory source)
          (Reading.nextAt (semanticReading host directory source) here arg) rest).count arg ≤ rest.count arg :=
        left_sublist.count_le arg
      rw [count_left_cons, List.count_cons_self] at hle
      by_contra hnot
      rw [if_neg fun h => hnot h.1] at hle
      omega
    have hrestAlone : ∀ token ∈ tokens, rest.count token ≤
        (left (semanticReading host directory source)
          (Reading.nextAt (semanticReading host directory source) here arg) rest).count token := by
      intro token htoken
      have hle := halone token htoken
      rw [count_left_cons] at hle
      by_cases heq : arg = token
      · rw [if_pos ⟨hkept token htoken heq, heq⟩, ← heq, List.count_cons_self] at hle
        simpa [← heq] using hle
      · simpa [heq] using hle
    refine ⟨fun hstays => .inl ?_, fun next _ hmove => absurd hmove (by simp [hmoved next]), ih hrestShell ?_ hrestAlone
      hrestOrigin ?_⟩
    · have htoken : arg ∈ tokens := hmem arg (by rw [left_cons_of_staysAt hstays]; exact List.mem_cons_self)
      have hle := hcount arg htoken
      rw [count_left_cons, rewriteArguments_cons hargShell, count_left_passed (hpass arg htoken), if_pos ⟨hstays, rfl⟩] at hle
      have hfound : (left (semanticReading host directory source)
          ((passed host settings source skip arg rest).elim there
            (Reading.nextAt (semanticReading host directory source) there))
          (rewriteArguments host settings source true (consumesNext skip arg rest) rest)).count arg ≤
            (rewriteArguments host settings source true (consumesNext skip arg rest) rest).count arg :=
        left_sublist.count_le arg
      have hrewrite : (rewriteArguments host settings source true (consumesNext skip arg rest) rest).count arg ≤
          rest.count arg :=
        count_rewriteArguments_le hrestShell (hrestOrigin arg htoken)
      have hrest := hrestAlone arg htoken
      by_contra hnot
      rw [if_neg fun h => hnot ⟨h.1, h.2.1⟩] at hle
      omega
    · exact fun token htoken => hmem token (left_sublist_cons.subset htoken)
    · intro token htoken
      have hle := hcount token htoken
      rw [count_left_cons, rewriteArguments_cons hargShell, count_left_passed (hpass token htoken)] at hle
      by_cases heq : arg = token
      · rw [if_pos ⟨hkept token htoken heq, heq⟩] at hle
        split at hle <;> omega
      · simpa [heq] using hle

end

-- ---------------------------------------------------------------------------
-- The adjusted command keeps the context
-- ---------------------------------------------------------------------------

section

variable {host : Host} {settings : ScanSettings} {source : String} {args : List String}

attribute [local grind =] stripShellControlTail relocateInput

theorem stripShellControlTail_eq_self (hshell : ∀ arg ∈ args, isShellControlToken arg = false)
    (htail : ∀ arg ∈ args, trimEmbeddedShellControlTail arg = none) : stripShellControlTail args = args := by
  induction args with
  | nil => rfl
  | cons arg args ih =>
    rw [stripShellControlTail, hshell arg List.mem_cons_self, htail arg List.mem_cons_self,
      ih (fun a ha => hshell a (List.mem_cons_of_mem arg ha)) fun a ha => htail a (List.mem_cons_of_mem arg ha)]
    rfl

theorem relocateInput_cons (source : String) {compiler : String} (front back : List String)
    (hcompiler : isPosixInput host source compiler = false) :
    ∃ more, relocateInput host source (compiler :: (front ++ back)) =
      compiler :: (front.eraseP (isPosixInput host source) ++ more) := by
  have herase : (compiler :: (front ++ back)).eraseP (isPosixInput host source) =
      compiler :: (front ++ back).eraseP (isPosixInput host source) :=
    List.eraseP_cons_of_neg (by simp [hcompiler])
  have hfront : (front.any (isPosixInput host source)) ≠ true →
      front.eraseP (isPosixInput host source) = front := by
    intro hnone
    refine List.eraseP_of_forall_not fun arg harg hinput => hnone ?_
    exact List.any_eq_true.mpr ⟨arg, harg, hinput⟩
  unfold relocateInput
  split
  · rename_i input _
    rw [herase, List.eraseP_append]
    split
    · exact ⟨back ++ ["--", input], by simp⟩
    · rename_i hnone
      exact ⟨back.eraseP (isPosixInput host source) ++ ["--", input], by simp [hfront hnone]⟩
  · rename_i hnone
    have hall := List.find?_eq_none.mp hnone
    refine ⟨back, ?_⟩
    rw [hfront]
    intro hany
    obtain ⟨arg, harg, hinput⟩ := List.any_eq_true.mp hany
    exact hall arg (List.mem_cons_of_mem compiler (List.mem_append_left back harg)) hinput

theorem relocateInput_separator (source : String) {compiler : String} (front back : List String)
    (hcompiler : isPosixInput host source compiler = false) (hfront : front.any (isPosixInput host source) = true) :
    ∃ input, relocateInput host source (compiler :: (front ++ back)) =
      compiler :: (front.eraseP (isPosixInput host source) ++ (back ++ ["--", input])) := by
  unfold relocateInput
  split
  · rename_i input _
    refine ⟨input, ?_⟩
    rw [List.eraseP_cons_of_neg (by simp [hcompiler]), List.eraseP_append, if_pos hfront]
    simp
  · rename_i hnone
    obtain ⟨arg, harg, hinput⟩ := List.any_eq_true.mp hfront
    exact absurd hinput
      (List.find?_eq_none.mp hnone arg (List.mem_cons_of_mem compiler (List.mem_append_left back harg)))

end

section

variable (host : Host) (settings : ScanSettings) (command : CompileCommand) (source : String)

def scanCompiler : String :=
  selectClangToolchainCompiler host settings command.commandLine ((fromCompiler command.commandLine).headD "")

/-- In driver mode `cl` the input is moved to the end. -/
def isMovedInput (arg : String) : Bool :=
  command.commandLine.contains "--driver-mode=cl" && isPosixInput host source arg

/-- The two passes agree on the command, behind what the tool puts in front. -/
structure PassesAgree : Prop where
  noTail : ∀ arg ∈ command.commandLine, trimEmbeddedShellControlTail arg = none
  /-- The tool's own command for a missing entry has nothing to lose. -/
  synthetic : missingCompdbSyntheticCommandMarker ∈ command.commandLine →
    left (semanticReading host command.directory source) none (argumentsAfterCompiler command.commandLine) = []
  compiler : isMovedInput host command source (scanCompiler host settings command) = false
  front : Aside (semanticReading host command.directory source) (isMovedInput host command source) none
    (frontArguments settings command.commandLine source (scanCompiler host settings command))
  inPlace : InPlace host settings command.directory source (isMovedInput host command source)
    (after (semanticReading host command.directory source) none settings.extraModuleArgs = none) false none
    (after (semanticReading host command.directory source) none
      (frontArguments settings command.commandLine source (scanCompiler host settings command)))
    (argumentsAfterCompiler command.commandLine)

/-- No token of the command can come from somewhere else: none is also removed as a
value, added by the tool, or what another argument is rewritten into. -/
structure TokensApart : Prop where
  noTail : ∀ arg ∈ command.commandLine, trimEmbeddedShellControlTail arg = none
  noMarker : missingCompdbSyntheticCommandMarker ∉ command.commandLine
  driver : "--driver-mode=cl" ∉ command.commandLine
  alone : ∀ token ∈ left (semanticReading host command.directory source) none
      (argumentsAfterCompiler command.commandLine),
    (argumentsAfterCompiler command.commandLine).count token ≤
      (left (semanticReading host command.directory source) none (argumentsAfterCompiler command.commandLine)).count token
  added : ∀ token ∈ left (semanticReading host command.directory source) none
      (argumentsAfterCompiler command.commandLine),
    token ∉ frontArguments settings command.commandLine source (scanCompiler host settings command) ∧
      token ∉ settings.extraModuleArgs
  origin : ∀ token ∈ left (semanticReading host command.directory source) none
      (argumentsAfterCompiler command.commandLine),
    ∀ arg rest, arg :: rest <:+ argumentsAfterCompiler command.commandLine →
      rewritten host settings source arg rest = some token → arg = token

end

section

variable {host : Host} {settings : ScanSettings} {command : CompileCommand} {source : String}

attribute [local grind =] scanCompiler isMovedInput buildAdjustedCommandLine frontArguments

theorem adjusted_eq (hshell : ∀ arg ∈ command.commandLine, isShellControlToken arg = false)
    (htail : ∀ arg ∈ command.commandLine, trimEmbeddedShellControlTail arg = none)
    (hmarker : missingCompdbSyntheticCommandMarker ∉ command.commandLine)
    (hfound : fromCompiler command.commandLine ≠ []) :
    buildAdjustedCommandLine host settings command.commandLine source true =
      let adjusted := scanCompiler host settings command ::
        (frontArguments settings command.commandLine source (scanCompiler host settings command) ++
          rewriteArguments host settings source true false (argumentsAfterCompiler command.commandLine) ++
            settings.extraModuleArgs)
      if command.commandLine.contains "--driver-mode=cl" then relocateInput host source adjusted else adjusted := by
  have hcontains : command.commandLine.contains missingCompdbSyntheticCommandMarker = false := by simpa using hmarker
  obtain ⟨compilerArg, arguments, heq⟩ := List.exists_cons_of_ne_nil hfound
  have hcompiler : scanCompiler host settings command =
      selectClangToolchainCompiler host settings command.commandLine compilerArg := by
    simp [scanCompiler, heq]
  have hne := ne_empty_of_isClangLikeCompiler
    (selectClangToolchainCompiler_clang host settings command.commandLine compilerArg)
  have harguments : argumentsAfterCompiler command.commandLine = arguments := by simp [argumentsAfterCompiler, heq]
  simp only [buildAdjustedCommandLine, stripShellControlTail_eq_self hshell htail, hcontains, heq, Bool.false_eq_true,
    if_false, hcompiler, hne, harguments]

theorem semantic_context_kept (hshell : ∀ arg ∈ command.commandLine, isShellControlToken arg = false)
    (h : PassesAgree host settings command source) :
    adjustedScanPreservesSemanticContext host command source
      (buildAdjustedCommandLine host settings command.commandLine source true) = none := by
  refine missingToken_eq_none_iff.mpr (List.Sublist.cons_cons _ ?_)
  by_cases hmarker : missingCompdbSyntheticCommandMarker ∈ command.commandLine
  · rw [h.synthetic hmarker]
    exact List.nil_sublist _
  by_cases hfound : fromCompiler command.commandLine = []
  · have hnone : argumentsAfterCompiler command.commandLine = [] := by simp [argumentsAfterCompiler, hfound]
    rw [hnone]
    exact List.nil_sublist _
  have hargsShell : ∀ arg ∈ argumentsAfterCompiler command.commandLine, isShellControlToken arg = false :=
    fun arg harg => hshell arg ((argumentsAfterCompiler_suffix command.commandLine).subset harg)
  have hclang : isClangLikeCompiler (scanCompiler host settings command) = true :=
    selectClangToolchainCompiler_clang host settings command.commandLine _
  have hsub := h.inPlace.left_sublist (by simp) hargsShell
  have haside := aside_append.mpr ⟨h.front, h.inPlace.aside hargsShell⟩
  have hcompiler := h.compiler
  simp only [adjusted_eq hshell h.noTail hmarker hfound]
  generalize frontArguments settings command.commandLine source (scanCompiler host settings command) = front
    at hsub haside ⊢
  generalize rewriteArguments host settings source true false (argumentsAfterCompiler command.commandLine) = middle
    at hsub haside ⊢
  cases hdriver : command.commandLine.contains "--driver-mode=cl" with
  | false =>
    rw [if_neg Bool.false_ne_true, argumentsAfterCompiler_cons hclang, left_append, left_append]
    rcases hsub with hsub | ⟨-, -, ⟨input, -, hmoved⟩, -⟩
    · exact (hsub.trans (List.sublist_append_right _ _)).trans (List.sublist_append_left _ _)
    · rw [isMovedInput, hdriver] at hmoved
      cases hmoved
  | true =>
    have hmoves : isMovedInput host command source = isPosixInput host source :=
      funext fun arg => by simp only [isMovedInput, hdriver, Bool.true_and]
    rw [hmoves] at hsub haside hcompiler
    obtain ⟨hleft, hafter⟩ := haside.eraseP
    rw [if_pos rfl]
    rcases hsub with hsub | ⟨hclosing, hdashes, ⟨input, hmem, hinput⟩, hend, hsub⟩
    · obtain ⟨more, heq⟩ := relocateInput_cons source (front ++ middle) settings.extraModuleArgs hcompiler
      rw [heq, argumentsAfterCompiler_cons hclang, left_append, hleft, left_append]
      exact (hsub.trans (List.sublist_append_right _ _)).trans (List.sublist_append_left _ _)
    · obtain ⟨last, heq⟩ := relocateInput_separator source (front ++ middle) settings.extraModuleArgs hcompiler
        (List.any_eq_true.mpr ⟨input, List.mem_append_right front hmem, hinput⟩)
      have hback : left (semanticReading host command.directory source) none
          (settings.extraModuleArgs ++ ["--", last]) =
          left (semanticReading host command.directory source) none settings.extraModuleArgs ++
            "--" :: left (semanticReading host command.directory source) none [last] := by
        rw [left_append, of_decide_eq_true hclosing, left_keep hdashes]
      rw [heq, argumentsAfterCompiler_cons hclang, left_append, hleft, hafter, left_append, after_append, hend, hback]
      refine hsub.trans ((List.sublist_append_right _ _).append ?_)
      exact (List.sublist_append_right _ _).trans (List.Sublist.append_left (by simp) _)

theorem inPlace_of_context_kept (hshell : ∀ arg ∈ command.commandLine, isShellControlToken arg = false)
    (h : TokensApart host settings command source)
    (hkept : adjustedScanPreservesSemanticContext host command source
      (buildAdjustedCommandLine host settings command.commandLine source true) = none) :
    PassesAgree host settings command source := by
  have hdriver : command.commandLine.contains "--driver-mode=cl" = false := by simpa using h.driver
  have hmoved : ∀ arg, isMovedInput host command source arg = false := fun arg => by
    rw [isMovedInput, hdriver, Bool.false_and]
  refine ⟨h.noTail, fun hmarker => absurd hmarker h.noMarker, hmoved _, ?_, ?_⟩
  · exact aside_of_none fun arg _ => hmoved arg
  by_cases hfound : fromCompiler command.commandLine = []
  · have hnone : argumentsAfterCompiler command.commandLine = [] := by simp [argumentsAfterCompiler, hfound]
    rw [hnone]
    trivial
  have hclang : isClangLikeCompiler (scanCompiler host settings command) = true :=
    selectClangToolchainCompiler_clang host settings command.commandLine _
  have hsub := List.cons_sublist_cons.mp (missingToken_eq_none_iff.mp hkept)
  simp only [adjusted_eq hshell h.noTail h.noMarker hfound, hdriver, if_neg Bool.false_ne_true,
    argumentsAfterCompiler_cons hclang] at hsub
  refine inPlace_of_count (fun arg harg => hshell arg ((argumentsAfterCompiler_suffix _).subset harg)) hmoved
    (fun _ => id) h.alone h.origin fun token htoken => ?_
  have hcount := hsub.count_le token
  rw [left_append, left_append, List.count_append, List.count_append, count_left_eq_zero (h.added token htoken).1,
    count_left_eq_zero (h.added token htoken).2] at hcount
  omega

end

-- ---------------------------------------------------------------------------
-- Commands that are kept and lost
-- ---------------------------------------------------------------------------

/-- For a command without shell operators the check succeeds where the two passes
agree, and only there unless a lost token is supplied from elsewhere. -/
theorem adjusted_scan_keeps_context (host : Host) (settings : ScanSettings) (command : CompileCommand)
    (source : String) (hshell : ∀ arg ∈ command.commandLine, isShellControlToken arg = false) :
    (PassesAgree host settings command source →
      adjustedScanPreservesSemanticContext host command source
        (buildAdjustedCommandLine host settings command.commandLine source true) = none) ∧
    (TokensApart host settings command source →
      (adjustedScanPreservesSemanticContext host command source
        (buildAdjustedCommandLine host settings command.commandLine source true) = none ↔
          PassesAgree host settings command source)) :=
  ⟨semantic_context_kept hshell, fun happart =>
    ⟨inPlace_of_context_kept hshell happart, semantic_context_kept hshell⟩⟩

def bareSettings : ScanSettings where
  resourceDirForCompiler _ := "/usr/lib/clang/20"
  defaultCompilerPath := "/usr/bin/clang++"
  extraArgs := ["-DGENTEST_CODEGEN=1"]
  default_clang := by decide
  host_clang := .inl rfl

def launchedCommand : CompileCommand where
  directory := "/build"
  commandLine := ["ccache", "g++", "-DFAST", "-Werror", "-MF", "case.d", "-o", "case.o", "-c", "/src/case.cpp"]

theorem launched_command_keeps_context :
    adjustedScanPreservesSemanticContext plainHost launchedCommand "/src/case.cpp"
      (buildAdjustedCommandLine plainHost bareSettings launchedCommand.commandLine "/src/case.cpp" true) = none := by
  exact (adjusted_scan_keeps_context plainHost bareSettings launchedCommand "/src/case.cpp" (by decide)).1
    ⟨by decide, fun hmarker => absurd hmarker (by decide), by decide, by decide, by decide⟩

def separatedCommand : CompileCommand where
  directory := "/build"
  commandLine := ["clang++", "-DFAST", "-c", "--", "/src/case.cpp"]

theorem separator_is_lost :
    (∀ arg ∈ separatedCommand.commandLine, isShellControlToken arg = false) ∧
      adjustedScanPreservesSemanticContext plainHost separatedCommand "/src/case.cpp"
        (buildAdjustedCommandLine plainHost bareSettings separatedCommand.commandLine "/src/case.cpp" true) =
          some "--" := by
  decide

end Gentest.Codegen
