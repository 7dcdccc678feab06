import Gentest.Codegen.PrecompileCalls
import Mathlib.Data.Set.Finite.Basic

/-!
# The precompile recursion ends

A call starts a module that was not started, or visits a name that was not
visited for its root. Finitely many of both can occur.
-/

namespace Gentest.Codegen

section

variable {g : ModuleGraph} {sources : List ImportingSource} {keys : Finset ModuleKey}
  {names : Finset String} {σ σ' : BuildState} {w w' : Work}

/-- The keys and the names that the build can come to. -/
structure Covers (g : ModuleGraph) (sources : List ImportingSource) (keys : Finset ModuleKey)
    (names : Finset String) : Prop where
  named : ∀ idx s, g.sources[idx]? = some s → .named idx ∈ keys
  external : ∀ name owner, Occurs g sources name owner → .external name owner ∈ keys
  name : ∀ name owner, Occurs g sources name owner → name ∈ names

theorem exists_covers (hfinite : {p : String × String | Occurs g sources p.1 p.2}.Finite) :
    ∃ keys names, Covers g sources keys names := by
  refine ⟨(Finset.range g.sources.length).image .named ∪
    hfinite.toFinset.image fun p => .external p.1 p.2, hfinite.toFinset.image Prod.fst, ?_, ?_, ?_⟩
  · intro idx s hs
    obtain ⟨hlt, -⟩ := List.getElem?_eq_some_iff.mp hs
    exact Finset.mem_union_left _ (Finset.mem_image_of_mem _ (Finset.mem_range.mpr hlt))
  · intro name owner hoccurs
    refine Finset.mem_union_right _ (Finset.mem_image.mpr ⟨(name, owner), ?_, rfl⟩)
    exact hfinite.mem_toFinset.mpr hoccurs
  · intro name owner hoccurs
    exact Finset.mem_image.mpr ⟨(name, owner), hfinite.mem_toFinset.mpr hoccurs, rfl⟩

def unstarted (keys : Finset ModuleKey) (σ : BuildState) : Nat :=
  (keys.filter fun key => σ.states key = .notStarted).card

def unvisited (names : Finset String) (visited : List String) : Nat :=
  (names.filter fun name => name ∉ visited).card

theorem unstarted_le (keys : Finset ModuleKey) (h : Grows σ σ') : unstarted keys σ' ≤ unstarted keys σ := by
  refine Finset.card_le_card fun key hkey => ?_
  rw [Finset.mem_filter] at hkey ⊢
  exact ⟨hkey.1, by_contra fun hne => h.started key hne hkey.2⟩

theorem unstarted_set_lt {key : ModuleKey} (hmem : key ∈ keys) (hkey : σ.states key = .notStarted) :
    unstarted keys (σ.set key .building) < unstarted keys σ := by
  refine Finset.card_lt_card ⟨fun other hother => ?_, fun hsub => ?_⟩
  · rw [Finset.mem_filter] at hother ⊢
    by_cases hne : other = key
    · exact ⟨hother.1, hne ▸ hkey⟩
    · simpa [BuildState.set, Function.update_of_ne hne] using hother
  · have hin := (Finset.mem_filter.mp (hsub (Finset.mem_filter.mpr ⟨hmem, hkey⟩))).2
    simp [BuildState.set] at hin

theorem unvisited_le (names : Finset String) {visited visited' : List String} (h : ∀ name ∈ visited, name ∈ visited') :
    unvisited names visited' ≤ unvisited names visited := by
  refine Finset.card_le_card fun name hname => ?_
  rw [Finset.mem_filter] at hname ⊢
  exact ⟨hname.1, fun hmem => hname.2 (h name hmem)⟩

theorem unvisited_cons_lt {name : String} {visited : List String} (hmem : name ∈ names)
    (hnew : name ∉ visited) : unvisited names (name :: visited) < unvisited names visited := by
  refine Finset.card_lt_card ⟨fun other hother => ?_, fun hsub => ?_⟩
  · rw [Finset.mem_filter] at hother ⊢
    exact ⟨hother.1, fun h => hother.2 (List.mem_cons_of_mem _ h)⟩
  · have hin := hsub (Finset.mem_filter.mpr ⟨hmem, hnew⟩)
    simp at hin

/-- With the fuel for what is left to start and to visit, a call ends. -/
structure Ends (g : ModuleGraph) (sources : List ImportingSource) (keys : Finset ModuleKey)
    (names : Finset String) (fuel : Nat) (call : Closures) : Prop where
  named : ∀ {idx σ}, BuildInvariant g σ → unstarted keys σ * (names.card + 2) + 1 ≤ fuel →
    ∃ r, call.buildNamedModulePcm idx σ = some r
  external : ∀ {name owner σ}, Occurs g sources name owner → g.indexByName name = none →
    BuildInvariant g σ → unstarted keys σ * (names.card + 2) + 1 ≤ fuel →
      ∃ r, call.buildExternalNamedModulePcm name owner σ = some r
  arg : ∀ {name owner w}, Occurs g sources name owner → BuildInvariant g w.build →
    unstarted keys w.build * (names.card + 2) + 2 ≤ fuel →
      ∃ r, call.appendModuleArgForImport name owner w = some r
  transitive : ∀ {name owner w}, Occurs g sources name owner → BuildInvariant g w.build →
    unstarted keys w.build * (names.card + 2) + unvisited names w.visited + 2 ≤ fuel →
      ∃ r, call.appendTransitiveModuleArgsForImport name owner w = some r

theorem forImports_ends {step : String → Work → Outcome Work} {imports : List String}
    (hspec : ∀ name ∈ imports, ∀ {w b w'}, step name w = some (b, w') → BuildInvariant g w.build →
      BuildInvariant g w'.build ∧ Grows w.build w'.build ∧ (b = true → ∀ x ∈ w.visited, x ∈ w'.visited))
    (hends : ∀ name ∈ imports, ∀ w', BuildInvariant g w'.build → Grows w.build w'.build →
      (∀ x ∈ w.visited, x ∈ w'.visited) → ∃ r, step name w' = some r)
    (hinv : BuildInvariant g w.build) : ∃ r, forImports step imports w = some r := by
  induction imports generalizing w with
  | nil => exact ⟨_, rfl⟩
  | cons name imports ih =>
    obtain ⟨⟨b, w₁⟩, hfirst⟩ := hends name List.mem_cons_self w hinv .refl fun _ h => h
    obtain ⟨hinv₁, hgrows, hadvances⟩ := hspec name List.mem_cons_self hfirst hinv
    rw [forImports, hfirst]
    cases b with
    | false => exact ⟨_, rfl⟩
    | true =>
      refine ih (fun other hother => hspec other (List.mem_cons_of_mem _ hother))
        (fun other hother w' hinv' hgrows' hvisited => ?_) hinv₁
      exact hends other (List.mem_cons_of_mem _ hother) w' hinv' (hgrows.trans hgrows') fun x hx =>
        hvisited x (hadvances rfl x hx)

theorem transitive_loop_ends {fuel : Nat} {call : Closures} {owner : String} {imports : List String}
    (hcall : ClosureSpec g call) (hends : Ends g sources keys names fuel call)
    (hoccurs : ∀ name ∈ imports, Occurs g sources name owner) (hinv : BuildInvariant g w.build)
    (hfuel : unstarted keys w.build * (names.card + 2) + unvisited names w.visited + 2 ≤ fuel) :
    ∃ r, forImports (call.appendTransitiveModuleArgsForImport · owner) imports w = some r := by
  refine forImports_ends (fun name hname _ _ _ hstep hinv => ?_)
    (fun name hname w' hinv' hgrows hvisited => ?_) hinv
  · obtain ⟨hinv', hgrows, hadvances⟩ := hcall.transitive closedImports_occurs (hoccurs name hname) hstep hinv
    exact ⟨hinv', hgrows, fun hb => (hadvances hb).1.visited⟩
  · refine hends.transitive (hoccurs name hname) hinv' (le_trans ?_ hfuel)
    have hstarted := Nat.mul_le_mul_right (names.card + 2) (unstarted_le keys hgrows)
    have hleft := unvisited_le names hvisited
    omega

theorem finishModule_ends {execute : Execute} {key : ModuleKey} {r : Outcome Work}
    (h : ∃ s, r = some s) : ∃ s, finishModule execute key r = some s := by
  obtain ⟨⟨b, w⟩, rfl⟩ := h
  cases b <;> exact ⟨_, rfl⟩

theorem addModuleArg_ends {name path : String} {r : Outcome BuildState} (h : ∃ s, r = some s) :
    ∃ s, addModuleArg name path w r = some s := by
  obtain ⟨⟨b, σ⟩, rfl⟩ := h
  cases b <;> exact ⟨_, rfl⟩

theorem fuel_for_imports {fuel : Nat} {key : ModuleKey} (hmem : key ∈ keys)
    (hkey : σ.states key = .notStarted)
    (hfuel : unstarted keys σ * (names.card + 2) + 1 ≤ fuel + 1) :
    unstarted keys (σ.set key .building) * (names.card + 2) + names.card + 2 ≤ fuel := by
  have hlt := unstarted_set_lt hmem hkey
  calc unstarted keys (σ.set key .building) * (names.card + 2) + names.card + 2
      = (unstarted keys (σ.set key .building) + 1) * (names.card + 2) := by
        rw [Nat.succ_mul, Nat.add_assoc]
    _ ≤ unstarted keys σ * (names.card + 2) := Nat.mul_le_mul_right _ hlt
    _ ≤ fuel := Nat.le_of_succ_le_succ hfuel

section

variable {execute : Execute} {call : Closures} {fuel : Nat} {name owner : String}

theorem buildNamedModulePcm_ends (hcovers : Covers g sources keys names)
    (hcall : ClosureSpec g call) (hends : Ends g sources keys names fuel call) {idx : Nat}
    (hinv : BuildInvariant g σ)
    (hfuel : unstarted keys σ * (names.card + 2) + 1 ≤ fuel + 1) :
    ∃ r, buildNamedModulePcm g execute call idx σ = some r := by
  unfold buildNamedModulePcm
  split
  · exact ⟨_, rfl⟩
  · rename_i source hsource
    split
    · exact ⟨_, rfl⟩
    · exact ⟨_, rfl⟩
    · exact ⟨_, rfl⟩
    · rename_i hstate
      have hleft := fuel_for_imports (hcovers.named idx source hsource) hstate hfuel
      have hnames : unvisited names [] ≤ names.card := Finset.card_filter_le _ _
      refine finishModule_ends (transitive_loop_ends hcall hends
        (fun name hname => Occurs.named (List.mem_of_getElem? hsource) hname)
        (hinv.set_building hstate) ?_)
      dsimp only
      omega

theorem buildExternalNamedModulePcm_ends (hcovers : Covers g sources keys names)
    (hcall : ClosureSpec g call) (hends : Ends g sources keys names fuel call)
    (hoccurs : Occurs g sources name owner) (hindex : g.indexByName name = none)
    (hinv : BuildInvariant g σ)
    (hfuel : unstarted keys σ * (names.card + 2) + 1 ≤ fuel + 1) :
    ∃ r, buildExternalNamedModulePcm g execute call name owner σ = some r := by
  unfold buildExternalNamedModulePcm
  split
  · exact ⟨_, rfl⟩
  · exact ⟨_, rfl⟩
  · exact ⟨_, rfl⟩
  · rename_i hstate
    split
    · split <;> exact ⟨_, rfl⟩
    · rename_i source σ₁ hresolve
      obtain ⟨hstates, hexecuted, hfound⟩ := resolveExternal_spec hresolve
      have hsource := (hfound source).mp rfl
      have hstate₁ : σ₁.states (.external name owner) = .notStarted := by rw [hstates, hstate]
      have hfuel₁ : unstarted keys σ₁ * (names.card + 2) + 1 ≤ fuel + 1 := by
        rw [unstarted, hstates]
        exact hfuel
      have hleft := fuel_for_imports (hcovers.external name owner hoccurs) hstate₁ hfuel₁
      refine finishModule_ends (forImports_ends (fun y hy _ _ _ hstep hinv => ?_)
        (fun y hy w' hinv' hgrows _ => ?_) ((hinv.of_eq hstates hexecuted).set_building hstate₁))
      · obtain ⟨hinv', hgrows, hadvances⟩ := hcall.arg (C := Occurs g sources) hstep hinv
        exact ⟨hinv', hgrows, fun hb => (hadvances hb).1.visited⟩
      · refine hends.arg (Occurs.external hoccurs hindex hsource hy) hinv' ?_
        have hle := Nat.mul_le_mul_right (names.card + 2) (unstarted_le keys hgrows)
        dsimp only at hle
        omega

theorem appendModuleArgForImport_ends (hends : Ends g sources keys names fuel call)
    (hoccurs : Occurs g sources name owner) (hinv : BuildInvariant g w.build)
    (hfuel : unstarted keys w.build * (names.card + 2) + 2 ≤ fuel + 1) :
    ∃ r, appendModuleArgForImport g call name owner w = some r := by
  unfold appendModuleArgForImport
  split
  · exact addModuleArg_ends (hends.named hinv (Nat.le_of_succ_le_succ hfuel))
  · rename_i hindex
    split
    · exact ⟨_, rfl⟩
    · rename_i source σ₁ hresolve
      obtain ⟨hstates, hexecuted, -⟩ := resolveExternal_spec hresolve
      refine addModuleArg_ends (hends.external hoccurs hindex (hinv.of_eq hstates hexecuted) ?_)
      rw [unstarted, hstates]
      exact Nat.le_of_succ_le_succ hfuel

theorem appendNestedImports_ends (hcall : ClosureSpec g call)
    (hends : Ends g sources keys names fuel call) (hoccurs : Occurs g sources name owner)
    (hinv : BuildInvariant g w.build)
    (hfuel : unstarted keys w.build * (names.card + 2) + unvisited names w.visited + 2 ≤ fuel) :
    ∃ r, appendNestedImports g call name owner w = some r := by
  unfold appendNestedImports
  split
  · split
    · exact ⟨_, rfl⟩
    · rename_i source hsource
      exact transitive_loop_ends hcall hends
        (fun y hy => Occurs.named (List.mem_of_getElem? hsource) hy) hinv hfuel
  · rename_i hindex
    split
    · exact ⟨_, rfl⟩
    · rename_i source σ₁ hresolve
      obtain ⟨hstates, hexecuted, hfound⟩ := resolveExternal_spec hresolve
      refine transitive_loop_ends hcall hends
        (fun y hy => Occurs.external hoccurs hindex ((hfound source).mp rfl) hy)
        (hinv.of_eq hstates hexecuted) ?_
      rw [unstarted, hstates]
      exact hfuel

theorem appendTransitiveModuleArgsForImport_ends (hcovers : Covers g sources keys names)
    (hcall : ClosureSpec g call) (hends : Ends g sources keys names fuel call)
    (hoccurs : Occurs g sources name owner) (hinv : BuildInvariant g w.build)
    (hfuel : unstarted keys w.build * (names.card + 2) + unvisited names w.visited + 2 ≤ fuel + 1) :
    ∃ r, appendTransitiveModuleArgsForImport g call name owner w = some r := by
  unfold appendTransitiveModuleArgsForImport
  split
  · exact ⟨_, rfl⟩
  · rename_i hnew
    have hless := unvisited_cons_lt (hcovers.name name owner hoccurs) hnew
    have hfuel₁ : unstarted keys w.build * (names.card + 2) +
        unvisited names (name :: w.visited) + 2 ≤ fuel := by omega
    obtain ⟨⟨b, w₁⟩, harg⟩ := hends.arg (w := { w with visited := name :: w.visited }) hoccurs hinv
      (by dsimp only; omega)
    rw [harg]
    obtain ⟨hinv₁, hgrows, hadvances⟩ := hcall.arg (C := Occurs g sources) harg hinv
    cases b with
    | false => exact ⟨_, rfl⟩
    | true =>
      refine appendNestedImports_ends hcall hends hoccurs hinv₁ ?_
      have hle := Nat.mul_le_mul_right (names.card + 2) (unstarted_le keys hgrows)
      rw [(hadvances rfl).2.1]
      dsimp only at hle ⊢
      omega

theorem closures_end (hcovers : Covers g sources keys names) (execute : Execute) (fuel : Nat) :
    Ends g sources keys names fuel (closures g execute fuel) := by
  induction fuel with
  | zero =>
    exact ⟨fun _ h => absurd h (by omega), fun _ _ _ h => absurd h (by omega),
      fun _ _ h => absurd h (by omega), fun _ _ h => absurd h (by omega)⟩
  | succ fuel ih =>
    have hspec := closures_spec g execute fuel
    exact
      { named := buildNamedModulePcm_ends hcovers hspec ih
        external := buildExternalNamedModulePcm_ends hcovers hspec ih
        arg := appendModuleArgForImport_ends ih
        transitive := appendTransitiveModuleArgsForImport_ends hcovers hspec ih }

end

end

end Gentest.Codegen
