import Gentest.Codegen.PrecompileEnds

/-!
# Precompilation follows the imports

A module is precompiled after all that it imports, once for each key, and the
recursion ends whatever the graph and the commands do. A module of the project
is given the arguments of everything it can reach, an external one those of its
own imports only.
-/

namespace Gentest.Codegen

-- ---------------------------------------------------------------------------
-- The run
-- ---------------------------------------------------------------------------

section

variable {g : ModuleGraph} {sources : List ImportingSource} {σ σ' : BuildState} {call : Closures}

theorem invariant_init : BuildInvariant g {} where
  ended := nofun
  once := List.nodup_nil
  built := nofun
  valid := nofun
  ordered before p after h := by simp at h
  args := nofun

theorem buildRequired_spec (hcall : ClosureSpec g call) {required : List Nat} {b : Bool}
    (h : buildRequired call required σ = some (b, σ')) (hinv : BuildInvariant g σ) :
    BuildInvariant g σ' ∧ Grows σ σ' ∧
      (b = true → ∀ idx ∈ required, ∃ p ∈ σ'.executed, p.key = .named idx ∧ p.ok = true) := by
  induction required generalizing σ with
  | nil =>
    cases h
    exact ⟨hinv, .refl, fun _ => nofun⟩
  | cons idx required ih =>
    unfold buildRequired at h
    split at h
    · cases h
    · rename_i hfirst
      cases h
      obtain ⟨hinv', hgrows, -⟩ := hcall.named hfirst hinv
      exact ⟨hinv', hgrows, nofun⟩
    · rename_i σ₁ hfirst
      obtain ⟨hinv₁, hgrows₁, hdone⟩ := hcall.named hfirst hinv
      obtain ⟨p, hp, hkey⟩ := (hdone rfl).2
      obtain ⟨hinv', hgrows, hrest⟩ := ih h hinv₁
      refine ⟨hinv', hgrows₁.trans hgrows, fun hb => List.forall_mem_cons.mpr ⟨?_, hrest hb⟩⟩
      exact ⟨p, hgrows.executed p hp, hkey⟩

/-- The modules that a source imports are there, if their names mean them below it. -/
def SourceReady (g : ModuleGraph) (σ : BuildState) (s : ImportingSource) : Prop :=
  OwnMeaning g s.importedModules s.sourceKey →
    ∀ name ∈ s.importedModules, ∀ m, g.moduleAt name s.sourceKey = some m → Ready g σ.executed m

theorem buildSources_spec (hcall : ClosureSpec g call) {rest : List ImportingSource} {b : Bool}
    (h : buildSources g call rest σ = some (b, σ')) (hinv : BuildInvariant g σ) :
    BuildInvariant g σ' ∧ Grows σ σ' ∧ (b = true → ∀ s ∈ rest, SourceReady g σ' s) := by
  induction rest generalizing σ with
  | nil =>
    cases h
    exact ⟨hinv, .refl, fun _ => nofun⟩
  | cons s rest ih =>
    have hloop : ∀ {b w'}, forImports (call.appendTransitiveModuleArgsForImport · s.sourceKey)
        s.importedModules { build := σ, args := g.existingArgs s.sourceKey } = some (b, w') → _ :=
      fun hloop => forImports_spec (Q := fun name w => name ∈ w.visited)
        (fun name w w' hadvances => hadvances.visited name)
        (fun name hname _ _ _ hstep => hcall.transitive closedImports_below (.here hname) hstep) hloop hinv
    unfold buildSources at h
    split at h
    · cases h
    · rename_i w hfirst
      cases h
      obtain ⟨hinv', hgrows, -⟩ := hloop hfirst
      exact ⟨hinv', hgrows, nofun⟩
    · rename_i w hfirst
      obtain ⟨hinv₁, hgrows₁, hdone⟩ := hloop hfirst
      obtain ⟨hadvances, hvisited⟩ := hdone rfl
      obtain ⟨hinv', hgrows, hready⟩ := ih h hinv₁
      refine ⟨hinv', hgrows₁.trans hgrows, fun hb => List.forall_mem_cons.mpr ⟨?_, hready hb⟩⟩
      intro hmeaning name hname m hm
      obtain ⟨context, hbelow, hnext⟩ := hadvances.newly name (hvisited name hname) List.not_mem_nil
      obtain ⟨p, hp, hmodule⟩ := (hnext m ((hmeaning name hname context hbelow).trans hm)).1.1
      exact ⟨p, hgrows.executed p hp, hmodule⟩

def Wanted (g : ModuleGraph) (sources : List ImportingSource) (required : List Nat) (m : Module) : Prop :=
  (∃ idx ∈ required, g.moduleOf (.named idx) = some m) ∨
    ∃ s ∈ sources, ∃ name ∈ s.importedModules, g.moduleAt name s.sourceKey = some m

theorem precompileModules_spec {execute : Execute} {fuel : Nat} {required : List Nat} {ok : Bool}
    (h : precompileModules g execute fuel required sources = some (ok, σ)) :
    BuildInvariant g σ ∧ (ok = true → (∀ s ∈ sources, OwnMeaning g s.importedModules s.sourceKey) →
      ∀ m, Wanted g sources required m → Ready g σ.executed m) := by
  have hspec := closures_spec g execute fuel
  unfold precompileModules at h
  split at h
  · cases h
  · rename_i hrequired
    cases h
    exact ⟨(buildRequired_spec hspec hrequired invariant_init).1, nofun⟩
  · rename_i σ₁ hrequired
    obtain ⟨hinv₁, -, hdone⟩ := buildRequired_spec hspec hrequired invariant_init
    obtain ⟨hinv, hgrows, hready⟩ := buildSources_spec hspec h hinv₁
    refine ⟨hinv, fun hok hmeaning m hwanted => ?_⟩
    obtain ⟨idx, hidx, hm⟩ | ⟨s, hs, name, hname, hm⟩ := hwanted
    · obtain ⟨p, hp, hkey, hp'⟩ := hdone rfl idx hidx
      exact ⟨p, hgrows.executed p hp, hkey ▸ hm, hp'⟩
    · exact hready hok s hs (hmeaning s hs) name hname m hm

theorem precompileModules_ends (execute : Execute) (required : List Nat)
    (hfinite : {p : String × String | Occurs g sources p.1 p.2}.Finite) :
    ∃ enough, ∀ fuel, enough ≤ fuel → ∃ ok σ,
      precompileModules g execute fuel required sources = some (ok, σ) := by
  obtain ⟨keys, names, hcovers⟩ := exists_covers hfinite
  refine ⟨keys.card * (names.card + 2) + names.card + 2, fun fuel hfuel => ?_⟩
  have hspec := closures_spec g execute fuel
  have hends := closures_end hcovers execute fuel
  have hstarted : ∀ σ : BuildState,
      unstarted keys σ * (names.card + 2) ≤ keys.card * (names.card + 2) := fun σ =>
    Nat.mul_le_mul_right _ (Finset.card_filter_le _ _)
  have hrequired : ∀ (required : List Nat) σ, BuildInvariant g σ →
      ∃ r, buildRequired (closures g execute fuel) required σ = some r := by
    intro required
    induction required with
    | nil => exact fun _ _ => ⟨_, rfl⟩
    | cons idx required ih =>
      intro σ hinv
      have hstart := hstarted σ
      obtain ⟨⟨b, σ₁⟩, hfirst⟩ : ∃ r, (closures g execute fuel).buildNamedModulePcm idx σ = some r :=
        hends.named hinv (by omega)
      rw [buildRequired, hfirst]
      cases b with
      | false => exact ⟨_, rfl⟩
      | true => exact ih σ₁ (hspec.named hfirst hinv).1
  have hsources : ∀ (rest : List ImportingSource) σ, (∀ s ∈ rest, s ∈ sources) →
      BuildInvariant g σ →
        ∃ r, buildSources g (closures g execute fuel) rest σ = some r := by
    intro rest
    induction rest with
    | nil => exact fun _ _ _ => ⟨_, rfl⟩
    | cons s rest ih =>
      intro σ hrest hinv
      have hstart := hstarted σ
      have hleft : unvisited names [] ≤ names.card := Finset.card_filter_le _ _
      have hoccurs : ∀ name ∈ s.importedModules, Occurs g sources name s.sourceKey := fun name hname =>
        Occurs.source (hrest s List.mem_cons_self) hname
      obtain ⟨⟨b, w⟩, hfirst⟩ := transitive_loop_ends
        (w := { build := σ, args := g.existingArgs s.sourceKey }) hspec hends hoccurs hinv
        (by dsimp only; omega)
      rw [buildSources, hfirst]
      cases b with
      | false => exact ⟨_, rfl⟩
      | true =>
        refine ih w.build (fun t ht => hrest t (List.mem_cons_of_mem _ ht)) ?_
        exact (forImports_spec (C := Occurs g sources) (Q := fun _ _ => True) (fun _ _ _ _ _ => trivial)
          (fun name hname _ _ _ hstep hinv => by
            obtain ⟨hinv', hgrows, hadvances⟩ := hspec.transitive closedImports_occurs (hoccurs name hname) hstep hinv
            exact ⟨hinv', hgrows, fun hb => ⟨(hadvances hb).1, trivial⟩⟩) hfirst hinv).1
  obtain ⟨⟨b, σ₁⟩, hfirst⟩ := hrequired required {} invariant_init
  rw [precompileModules, hfirst]
  cases b with
  | false => exact ⟨_, _, rfl⟩
  | true =>
    obtain ⟨⟨ok, σ⟩, hlast⟩ := hsources sources σ₁ (fun _ hs => hs)
      (buildRequired_spec hspec hfirst invariant_init).1
    exact ⟨ok, σ, hlast⟩

end

/-- Whatever the imports, each command is of a module, and none runs twice. -/
structure RunsOnce (g : ModuleGraph) (σ : BuildState) : Prop where
  ofModules : ∀ p ∈ σ.executed, ∃ m, g.moduleOf p.key = some m
  once : (σ.executed.map Precompile.key).Nodup
  notRetried : ∀ before p after, σ.executed = before ++ p :: after → p.ok = false →
    ∀ q ∈ after, q.key ≠ p.key

/-- What a run of the precompile commands has to do with the imports. -/
structure FollowsImports (g : ModuleGraph) (sources : List ImportingSource) (required : List Nat)
    (ok : Bool) (σ : BuildState) : Prop where
  afterImports : ∀ before p after, σ.executed = before ++ p :: after →
    ∀ m, g.moduleOf p.key = some m → ∀ y, Reaches g m y → Ready g before y
  args : ∀ p ∈ σ.executed, ∀ m, g.moduleOf p.key = some m → ∀ y, Reaches g m y → HasArg g p.args y
  cycleFails : ∀ x y, Wanted g sources required x → y = x ∨ Reaches g x y → Reaches g y y → ok = false
  offCycles : ∀ p ∈ σ.executed, ∀ m, g.moduleOf p.key = some m → ¬Reaches g m m

/-- The steps of a run: the commands that run, and the sources once all are gone through. -/
structure RunMeets (g : ModuleGraph) (sources : List ImportingSource) (ok : Bool) (σ : BuildState) : Prop where
  commands : ∀ p ∈ σ.executed, StepMeets g p.key
  sources : ok = true → ∀ s ∈ sources, OwnMeaning g s.importedModules s.sourceKey

theorem BuildInvariant.offCycles {g : ModuleGraph} {σ : BuildState} (h : BuildInvariant g σ)
    (hmeets : ∀ p ∈ σ.executed, StepMeets g p.key) {p : Precompile} (hp : p ∈ σ.executed) {m : Module}
    (hm : g.moduleOf p.key = some m) : ¬Reaches g m m := by
  obtain ⟨before, after, hsplit⟩ := List.append_of_mem hp
  induction hlength : before.length using Nat.strong_induction_on generalizing p before after with
  | _ n ih =>
    intro hcycle
    have hprefix : ∀ q ∈ before ++ [p], StepMeets g q.key := fun q hq => hmeets q (by
      rw [hsplit]
      exact List.mem_append.mpr ((List.mem_append.mp hq).imp_right fun hq => by
        rw [List.mem_singleton.mp hq]
        exact List.mem_cons_self))
    obtain ⟨q, hq, hmodule, -⟩ := h.ordered before p after hsplit hprefix m hm _ hcycle
    obtain ⟨before', after', hbefore⟩ := List.append_of_mem hq
    have hshorter : before'.length < n := by
      rw [← hlength, hbefore, List.length_append, List.length_cons]
      omega
    refine ih before'.length hshorter (p := q) ?_ hmodule before' (after' ++ p :: after) ?_ rfl hcycle
    · rw [hsplit]
      exact List.mem_append_left _ hq
    · rw [hsplit, hbefore, List.append_assoc, List.cons_append]

/-- The build ends and runs no command twice, and a run follows the imports if its steps
meet the condition. -/
theorem precompile_follows_imports (g : ModuleGraph) (execute : Execute) (required : List Nat)
    (sources : List ImportingSource)
    (hfinite : {p : String × String | Occurs g sources p.1 p.2}.Finite) :
    (∃ enough, ∀ fuel, enough ≤ fuel → ∃ ok σ, precompileModules g execute fuel required sources = some (ok, σ)) ∧
      ∀ fuel ok σ, precompileModules g execute fuel required sources = some (ok, σ) →
        RunsOnce g σ ∧ (RunMeets g sources ok σ → FollowsImports g sources required ok σ) := by
  refine ⟨precompileModules_ends execute required hfinite, fun fuel ok σ hrun => ?_⟩
  obtain ⟨hinv, hwanted⟩ := precompileModules_spec hrun
  refine ⟨⟨hinv.valid, hinv.once, fun before p after hsplit _ q hq hkey => ?_⟩, fun hmeets => ?_⟩
  · have hnodup := hinv.once
    rw [hsplit, List.map_append, List.nodup_append] at hnodup
    obtain ⟨-, hnodup, -⟩ := hnodup
    rw [List.map_cons, List.nodup_cons] at hnodup
    exact hnodup.1 (List.mem_map.mpr ⟨q, hq, hkey⟩)
  refine ⟨fun before p after hsplit m hm y hy => ?_, fun p hp => hinv.args p hp (hmeets.commands p hp),
    fun x y hx hy hcycle => ?_, fun p hp m hm => hinv.offCycles hmeets.commands hp hm⟩
  · refine hinv.ordered before p after hsplit (fun q hq => hmeets.commands q ?_) m hm y hy
    rw [hsplit]
    exact List.mem_append.mpr ((List.mem_append.mp hq).imp_right fun hq => by
      rw [List.mem_singleton.mp hq]
      exact List.mem_cons_self)
  · by_contra hok
    rw [Bool.not_eq_false] at hok
    have hready := hwanted hok (hmeets.sources hok) x hx
    have hready' : Ready g σ.executed y := by
      rcases hy with rfl | hy
      · exact hready
      · exact hinv.ready_trans hmeets.commands hready hy
    obtain ⟨p, hp, hm, -⟩ := hready'
    exact hinv.offCycles hmeets.commands hp hm hcycle

/-- `main.cpp` imports the module `app` of the project, which imports the external
module `e1`; that one imports on for as long as the names given go. -/
def chainGraph (next : String → List String) : ModuleGraph where
  sources := [⟨"app", "app.cppm", ["e1"], "app.pcm"⟩]
  distinct := List.nodup_singleton _
  resolveExternal name _ :=
    if name = "e1" ∨ name = "e2" ∨ name = "e3" then
      .found ⟨next name, name ++ ".cppm", name ++ ".pcm"⟩
    else .missing
  existingArgs _ := []

def mainSource : List ImportingSource := [⟨"main.cpp", ["app"]⟩]

theorem chainGraph_moduleOf (next : String → List String) (name owner : String) :
    (chainGraph next).moduleOf (.external name owner) =
      if name = "e1" ∨ name = "e2" ∨ name = "e3" then some (.external name (name ++ ".cppm") (next name)) else none := by
  dsimp only [ModuleGraph.moduleOf, chainGraph]
  split_ifs <;> rfl

theorem chainGraph_below {imports : List String} {owner name context : String}
    (h : Below (chainGraph fun _ => []) imports owner name context) :
    name ∈ imports ∧ context = owner ∨ name = "e1" ∧ context = "app.cppm" := by
  cases h with
  | here hname => exact .inl ⟨hname, rfl⟩
  | @nested importer at' _ m _ hm hname =>
    cases m with
    | named idx =>
      cases idx with
      | zero => exact .inr ⟨List.mem_singleton.mp hname, rfl⟩
      | succ idx => cases hname
    | external name file imports =>
      unfold ModuleGraph.moduleAt ModuleGraph.keyAt at hm
      split at hm
      · unfold ModuleGraph.moduleOf at hm
        dsimp only at hm
        split at hm <;> cases hm
      · rw [chainGraph_moduleOf] at hm
        split at hm
        · cases hm
          cases hname
        · cases hm

/-- One external module without imports. -/
theorem single_external_follows_imports :
    ∃ enough, ∀ fuel, enough ≤ fuel → ∃ ok σ,
      precompileModules (chainGraph fun _ => []) (fun _ _ _ => true) fuel [0] mainSource =
        some (ok, σ) ∧ FollowsImports (chainGraph fun _ => []) mainSource [0] ok σ := by
  have hfinite : {p : String × String | Occurs (chainGraph fun _ => []) mainSource p.1 p.2}.Finite := by
    refine Set.Finite.subset (Set.toFinite {("app", "main.cpp"), ("e1", "app.cppm")}) ?_
    rintro ⟨name, owner⟩ hoccurs
    cases hoccurs with
    | source hs hname => simp_all [mainSource]
    | named hs hname => simp_all [chainGraph]
    | @external s _ importer owner _ _ hs hname =>
      have hmodule := moduleOf_external hs
      rw [chainGraph_moduleOf] at hmodule
      split at hmodule
      · rw [← (Module.external.inj (Option.some.inj hmodule)).2.2] at hname
        cases hname
      · cases hmodule
  obtain ⟨⟨enough, hends⟩, hruns⟩ := precompile_follows_imports (chainGraph fun _ => []) (fun _ _ _ => true) [0] mainSource
    hfinite
  refine ⟨enough, fun fuel hfuel => ?_⟩
  obtain ⟨ok, σ, hrun⟩ := hends fuel hfuel
  refine ⟨ok, σ, hrun, (hruns fuel ok σ hrun).2 ⟨fun p _ m hm => ?_, fun _ s hs name hname context hbelow => ?_⟩⟩
  · cases m with
    | named idx =>
      intro name context context' hbelow hbelow'
      cases idx with
      | zero =>
        have hsame : context = context' := by
          obtain ⟨-, rfl⟩ | ⟨-, rfl⟩ := chainGraph_below hbelow <;>
            obtain ⟨-, rfl⟩ | ⟨-, rfl⟩ := chainGraph_below hbelow' <;> rfl
        rw [hsame]
      | succ idx =>
        cases hkey : p.key with
        | named idx' =>
          rw [hkey] at hm
          unfold ModuleGraph.moduleOf at hm
          dsimp only at hm
          split at hm
          · rename_i hlt
            obtain rfl := Module.named.inj (Option.some.inj hm)
            exact absurd hlt (by simp [chainGraph])
          · cases hm
        | external name owner =>
          rw [hkey, chainGraph_moduleOf] at hm
          split at hm <;> cases hm
    | external name file imports =>
      intro y hreaches
      obtain ⟨z, ⟨name', hname', -⟩, -⟩ := Relation.TransGen.head'_iff.mp hreaches
      cases hkey : p.key with
      | named idx =>
        rw [hkey] at hm
        unfold ModuleGraph.moduleOf at hm
        dsimp only at hm
        split at hm <;> cases hm
      | external name owner =>
        rw [hkey, chainGraph_moduleOf] at hm
        split at hm
        · cases hm
          cases hname'
        · cases hm
  · obtain rfl := List.mem_singleton.mp hs
    obtain rfl := List.mem_singleton.mp hname
    obtain ⟨-, rfl⟩ | ⟨happ, -⟩ := chainGraph_below hbelow
    · rfl
    · exact absurd happ (by decide)

def chainNext (name : String) : List String :=
  if name = "e1" then ["e2"] else if name = "e2" then ["e3"] else []

/-- The external module at the head of a chain gets no argument for its end. -/
theorem external_chain_misses_arg :
    ∃ σ, precompileModules (chainGraph chainNext) (fun _ _ _ => true) 20 [0] mainSource =
        some (true, σ) ∧
      ⟨.external "e1" "app.cppm", ["-fmodule-file=e2=e2.pcm"], true⟩ ∈ σ.executed ∧
      Reaches (chainGraph chainNext) (.external "e1" "e1.cppm" ["e2"]) (.external "e3" "e3.cppm" []) ∧
      ¬ FollowsImports (chainGraph chainNext) mainSource [0] true σ := by
  have hrun : (precompileModules (chainGraph chainNext) (fun _ _ _ => true) 20 [0] mainSource).map
      (fun r => (r.1, r.2.executed)) = some (true,
        [⟨.external "e3" "e2.cppm", [], true⟩,
          ⟨.external "e2" "e1.cppm", ["-fmodule-file=e3=e3.pcm"], true⟩,
          ⟨.external "e1" "app.cppm", ["-fmodule-file=e2=e2.pcm"], true⟩,
          ⟨.named 0, ["-fmodule-file=e1=e1.pcm", "-fmodule-file=e2=e2.pcm",
            "-fmodule-file=e3=e3.pcm"], true⟩]) := by
    decide +kernel
  obtain ⟨⟨ok, σ⟩, hσ, heq⟩ := Option.map_eq_some_iff.mp hrun
  obtain ⟨rfl, hexecuted⟩ := Prod.mk.inj heq
  dsimp only at hexecuted
  have hmem : ⟨.external "e1" "app.cppm", ["-fmodule-file=e2=e2.pcm"], true⟩ ∈ σ.executed := by
    rw [hexecuted]
    decide +kernel
  have hmodule : (chainGraph chainNext).moduleOf (.external "e1" "app.cppm") =
      some (.external "e1" "e1.cppm" ["e2"]) := by decide +kernel
  have hreaches : Reaches (chainGraph chainNext) (.external "e1" "e1.cppm" ["e2"]) (.external "e3" "e3.cppm" []) :=
    .tail (.single (b := .external "e2" "e2.cppm" ["e3"]) ⟨"e2", List.mem_singleton_self _, by decide +kernel⟩)
      ⟨"e3", List.mem_singleton_self _, by decide +kernel⟩
  refine ⟨σ, hσ, hmem, hreaches, fun hfollows => ?_⟩
  obtain ⟨key, hname, harg⟩ := hfollows.args _ hmem _ hmodule _ hreaches
  rw [List.mem_singleton] at harg
  -- The two arguments differ in the digit of the name.
  have harg' : "-fmodule-file=" ++ "e3" ++ "=" ++ (chainGraph chainNext).pcmOf key =
      "-fmodule-file=e2=e2.pcm" := harg
  have hdigit := congrArg (fun arg : String => arg.toList[15]?) harg'
  rw [String.toList_append, String.toList_append, List.append_assoc,
    List.getElem?_append_left (by decide +kernel)] at hdigit
  exact absurd hdigit (by decide +kernel)

end Gentest.Codegen
