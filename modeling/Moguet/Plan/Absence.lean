import Moguet.Plan.EdgeOrigin

/-!
# Failed lookups and absent packages

A dependency is resolved through a provider or an installed package only when
no repository and no AUR package has its name. The repository lookup always
confirms that. The AUR lookup does too, except in the legacy mode without a
callback: there an ordinary failure of it is warned about and the walk goes on
as if the package were absent.
-/

namespace Moguet.Plan.Absence

open Verified.ByteString Verified.Checked Constraint Model Discovery Resolver Walk Resolution
open EdgeOrigin

variable {settings : ResolverSettings}

/-- Both exact lookups of the name completed, and neither source has it. -/
structure AbsenceConfirmed (settings : ResolverSettings) (name : Bytes) : Prop where
  repository : ∃ order, settings.env.queryRepositoryPackageStrict name =
    .ok (.notFound order)
  aur : queryAurPackageInfo settings.env settings.context name
    settings.selectProvider.isSome = .ok none

/-- An edge that is resolved without a package of its name in a repository or
the AUR. -/
def ResolvedElsewhere (edge : BuildPlanDependencyEdge) : Prop :=
  edge.kind = .provided ∨ edge.kind = .installed

theorem LookedUp.confirmed_iff {name : Bytes} (h : LookedUp settings name) :
    AbsenceConfirmed settings name ↔ ¬ AurFailureDropped settings name := by
  constructor
  · rintro hconfirmed ⟨-, hcallback, thrown, hthrown, -⟩
    have haur := hconfirmed.aur
    rw [hcallback] at haur
    change queryAurPackageInfo settings.env settings.context name false = .ok none at haur
    rw [hthrown] at haur
    cases haur
  · intro hkept
    exact ⟨h.repository, h.aur.resolve_right hkept⟩

theorem EdgeOrigin.lookedUp {edge : BuildPlanDependencyEdge} (h : EdgeOrigin settings edge)
    (hkind : ResolvedElsewhere edge) :
    ∃ consumer, parseDependencyRequirement edge.dependencySpec = .ok (.consumer consumer) ∧
        LookedUp settings consumer.packageName := by
  rcases hkind with hkind | hkind
  · obtain ⟨site, consumer, discovery, provider, hparsed, hplanned, -⟩ := h.provided hkind
    exact ⟨consumer, hparsed, hplanned.discovered.lookedUp⟩
  · obtain ⟨site, consumer, discovery, hparsed, hdiscovered, -⟩ := h.installed hkind
    exact ⟨consumer, hparsed, hdiscovered.lookedUp⟩

/-- **When failure is not absence**: behind an edge that was resolved through a
provider or an installed package both lookups confirmed the absence of the
name, exactly when its AUR lookup is not a failure that the legacy mode
without a callback drops. -/
theorem absenceConfirmed_iff_not_dropped (env : MetadataEnvironment)
    (targets : List Bytes) (context : BuildPlanResolutionContext)
    (selectProvider : Option ProviderSelectionCallback) (result : PassResult)
    (h : resolveBuildPlanOnce env targets context selectProvider = .ok result)
    (edge : BuildPlanDependencyEdge) (hedge : edge ∈ result.plan.dependencyEdges)
    (hkind : ResolvedElsewhere edge) :
    ∃ consumer,
      parseDependencyRequirement edge.dependencySpec = .ok (.consumer consumer) ∧
        (AbsenceConfirmed
            { env := env, context := context, selectProvider := selectProvider }
            consumer.packageName ↔
          ¬ (context.mode = .legacy ∧ selectProvider = none ∧
            ∃ thrown, queryAurPackageInfo env context consumer.packageName false =
              .error thrown ∧ thrown.isOrdinary = true)) := by
  have htraced := resolveBuildPlanOnce_edgeOrigin h edge hedge
  obtain ⟨consumer, hparsed, hlookedUp⟩ := EdgeOrigin.lookedUp htraced hkind
  exact ⟨consumer, hparsed, LookedUp.confirmed_iff hlookedUp⟩

/-- `app` depends on `sh`, which only `shell` provides. -/
def appAndShell : MetadataEnvironment :=
  MetadataEnvironment.ofAurRecords
    [{ name := ascii "app", packageBase := ascii "app", version := ascii "1-1",
       depends := [ascii "sh"] },
     { name := ascii "shell", packageBase := ascii "shell", version := ascii "1-1",
       provides := [ascii "sh"] }]

/-- The edge to `shell` rests on two confirmed absences. -/
theorem absenceConfirmed_app :
    ∃ result edge,
      resolveBuildPlanOnce appAndShell [ascii "app"] { mode := .legacy } none =
          .ok result ∧
        edge ∈ result.plan.dependencyEdges ∧ edge.kind = .provided ∧
        ∃ consumer,
          parseDependencyRequirement edge.dependencySpec = .ok (.consumer consumer) ∧
            (AbsenceConfirmed
                { env := appAndShell, context := { mode := .legacy } }
                consumer.packageName ↔
              ¬ (BuildPlanResolutionMode.legacy = .legacy ∧
                (none : Option ProviderSelectionCallback) = none ∧
                ∃ thrown, queryAurPackageInfo appAndShell { mode := .legacy }
                  consumer.packageName false = .error thrown ∧
                    thrown.isOrdinary = true)) := by
  have hview : (resolveBuildPlanOnce appAndShell [ascii "app"] { mode := .legacy }
      none).toOption.map (fun result => result.plan.dependencyEdges.map (·.kind)) =
        some [.provided] := by decide +kernel
  obtain ⟨result, hresult, hseen⟩ := exists_ok_of_view hview
  obtain ⟨edge, hedges, hkind⟩ := List.map_eq_singleton_iff.mp hseen
  have hmem : edge ∈ result.plan.dependencyEdges := by
    rw [hedges]
    exact List.mem_singleton.mpr rfl
  exact ⟨result, edge, hresult, hmem, hkind,
    absenceConfirmed_iff_not_dropped appAndShell [ascii "app"] { mode := .legacy } none
      result hresult edge hmem (Or.inl hkind)⟩

/-- `app` depends on `lib`, which is installed; the AUR does not answer for
`lib`. -/
def silentAurForLib : MetadataEnvironment :=
  let records := MetadataEnvironment.ofAurRecords
    [{ name := ascii "app", packageBase := ascii "app", version := ascii "1-1",
       depends := [ascii "lib"] }]
  { records with
    aurInfo := fun name =>
      if name = ascii "lib" then .error ⟨.runtimeError, ascii "AUR request failed"⟩
      else records.aurInfo name
    queryInstalledExactPackageStrict := fun name =>
      .ok (.present ⟨name, .available .installedExactPackage (ascii "1-1")⟩)
    aurInfo_name := by
      intro name info h
      split at h
      · cases h
      · exact records.aurInfo_name name info h }

/-- The failed lookup of `lib` is taken for its absence: the edge is resolved
as installed. -/
theorem dropped_failure_resolves_installed :
    ¬ ∀ (env : MetadataEnvironment) (targets : List Bytes)
      (context : BuildPlanResolutionContext)
      (selectProvider : Option ProviderSelectionCallback) (result : PassResult),
      resolveBuildPlanOnce env targets context selectProvider = .ok result →
      ∀ edge ∈ result.plan.dependencyEdges, ResolvedElsewhere edge →
        ∃ consumer,
          parseDependencyRequirement edge.dependencySpec = .ok (.consumer consumer) ∧
            AbsenceConfirmed
              { env := env, context := context, selectProvider := selectProvider }
              consumer.packageName := by
  intro hall
  have hview : (resolveBuildPlanOnce silentAurForLib [ascii "app"] { mode := .legacy }
      none).toOption.map (fun result => result.plan.dependencyEdges.map
        fun edge => (edge.kind, edge.dependencySpec)) =
        some [(.installed, ascii "lib")] := by decide +kernel
  obtain ⟨result, hresult, hseen⟩ := exists_ok_of_view hview
  obtain ⟨edge, hedges, hkind⟩ := List.map_eq_singleton_iff.mp hseen
  injection hkind with hkind hspec
  have hmem : edge ∈ result.plan.dependencyEdges := by
    rw [hedges]
    exact List.mem_singleton.mpr rfl
  obtain ⟨consumer, hparsed, hconfirmed⟩ :=
    hall silentAurForLib [ascii "app"] { mode := .legacy } none result hresult edge hmem
      (Or.inr hkind)
  rw [hspec] at hparsed
  have hlib : parseDependencyRequirement (ascii "lib") =
      .ok (.consumer ⟨ascii "lib", ascii "lib", none⟩) := by decide +kernel
  rw [hlib] at hparsed
  injection hparsed with hparsed
  injection hparsed with hparsed
  have haur := hconfirmed.aur
  rw [← hparsed] at haur
  cases haur

end Moguet.Plan.Absence
