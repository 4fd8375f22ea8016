import Moguet.Plan.Walk

/-!
# Selected providers read again

A provider of the AUR is looked up once more before it is planned. What comes
back is the provider that was selected, with the record it has now, or
nothing the plan can use.
-/

namespace Moguet.Plan.Refresh

open Verified.ByteString Verified.Checked Constraint Metadata Model Discovery Dependency Resolver
open Walk

variable {env : MetadataEnvironment} {metadata : AurPackageConstraintMetadata}
  {projection selected : AurProviderDependencyProjection}

/-- What a refresh can give: a repository provider as it was selected, an AUR
provider that kept its identity and its contract, or an unknown one whose
failure was recorded. -/
inductive RefreshSpec (settings : ResolverSettings) (selected : ProvidedDependency)
    (plan : BuildPlan) : ProviderRefresh → BuildPlan → Prop
  | asSelected (evaluation : ConstraintEvaluation)
      (horigin : selected.origin ≠ .aur) :
      RefreshSpec settings selected plan (.current selected evaluation none) plan
  | reread (provider : ProvidedDependency) (evaluation : ConstraintEvaluation)
      (info : AurPackageInfo) (horigin : selected.origin = .aur)
      (hprovider : provider.origin = .aur)
      (hidentity : sameProviderIdentity selected provider = true)
      (hcontract : sameProviderContract selected provider = true)
      (hknown : Known settings info) (hname : provider.packageName = info.name)
      (hbase : provider.packageBase = info.packageBase) :
      RefreshSpec settings selected plan
        (.current provider evaluation (some info)) plan
  | unknown (reason : ObservedVersionUnknownReason) (after : BuildPlan)
      (hframe : LookupFrame plan after) :
      RefreshSpec settings selected plan (.unknown reason) after

theorem projectAvailableAurProvider_ok {requirement : ConsumerDependencyRequirement}
    (h : projectAvailableAurProvider env requirement metadata = .ok (.projection projection)) :
    projection.provider.origin = .aur ∧ projection.provider.packageName = metadata.packageName ∧
      projection.provider.packageBase = metadata.packageBase := by
  unfold projectAvailableAurProvider at h
  split at h
  · cases h
  · rw [bind_eq_ok] at h
    obtain ⟨provider, hprovider, h⟩ := h
    injection h with h
    injection h with h
    rw [← h, ProvidedDependency.fromAurConstraintMetadata_ok hprovider]
    exact ⟨rfl, rfl, rfl⟩

/-- A refresh from a record keeps the identity and the contract of the
selection. -/
theorem refreshAurProviderDependency_projection
    (h : refreshAurProviderDependency env selected (.metadata metadata) =
      .ok (.projection projection)) :
    projection.provider.origin = .aur ∧ projection.provider.packageName = metadata.packageName ∧
      projection.provider.packageBase = metadata.packageBase ∧
      sameProviderIdentity selected.provider projection.provider = true ∧
      sameProviderContract selected.provider projection.provider = true := by
  unfold refreshAurProviderDependency at h
  split at h
  · cases h
  · rename_i horigin
    dsimp only at h
    split at h
    · cases h
    · rename_i hidentity
      rw [bind_eq_ok] at h
      obtain ⟨result, hresult, h⟩ := h
      cases result with
      | unknown reason => cases h
      | failure kind => cases h
      | projection current =>
        dsimp only at h
        split at h
        · rename_i hcontract
          injection h with h
          injection h with h
          rw [← h]
          obtain ⟨hcurrent, hname, hbase⟩ := projectAvailableAurProvider_ok hresult
          push Not at horigin hidentity
          refine ⟨hcurrent, hname, hbase, ?_, hcontract⟩
          simp only [sameProviderIdentity, Bool.and_eq_true, decide_eq_true_eq]
          exact ⟨⟨horigin.trans hcurrent.symm, hidentity.1.trans hname.symm⟩,
            hidentity.2.trans hbase.symm⟩
        · cases h

theorem refreshAurProviderDependency_unavailable {packageName : Bytes} {packageBase : Option Bytes}
    {reason : ObservedVersionUnknownReason} :
    refreshAurProviderDependency env selected
      (.unavailable packageName packageBase reason) ≠ .ok (.projection projection) := by
  unfold refreshAurProviderDependency
  split
  · intro h; cases h
  · dsimp only
    split
    · intro h; cases h
    · intro h; cases h

theorem refreshSelectedProvider_spec {settings : ResolverSettings}
    {site : DependencySite} {consumer : ConsumerDependencyRequirement}
    {selected : ProvidedDependency} {plan after : BuildPlan}
    {refresh : ProviderRefresh}
    (h : refreshSelectedProvider settings site consumer selected plan =
      .ok (refresh, after)) : RefreshSpec settings selected plan refresh after := by
  unfold refreshSelectedProvider at h
  dsimp only at h
  split at h
  · rename_i horigin
    injection h with h
    injection h with hrefresh hplan
    rw [← hrefresh, ← hplan]
    exact RefreshSpec.asSelected _ horigin
  · rename_i horigin
    push Not at horigin
    simp only [bind_eq_ok] at h
    obtain ⟨⟨read, planRead⟩, hread, ⟨metadata, info, planCurrent⟩, hcurrent,
      result, hresult, h⟩ := h
    dsimp only at hcurrent hresult h
    have hreadFrame : LookupFrame plan planRead := by
      unfold readSelectedProvider at hread
      split at hread
      · injection hread with hread
        injection hread with _ hplan
        rw [← hplan]
        exact LookupFrame.refl plan
      · split at hread
        · injection hread with hread
          injection hread with _ hplan
          rw [← hplan]
          exact addResolutionFailure_frame _ _ _ _ _
        · cases hread
    cases read with
    | none =>
      -- Nothing was read: the projection is unknown and the failure recorded.
      injection hcurrent with hcurrent
      injection hcurrent with hmetadata hcurrent
      injection hcurrent with _ hplan
      rw [← hmetadata] at hresult
      cases result with
      | projection projection =>
        exact absurd hresult refreshAurProviderDependency_unavailable
      | failure kind => cases h
      | unknown reason =>
        injection h with h
        injection h with hrefresh hafter
        rw [← hrefresh, ← hafter, ← hplan]
        exact RefreshSpec.unknown _ _ (hreadFrame.trans (addResolutionFailure_frame _ _ _ _ _))
    | some record =>
      have hquery : queryAurPackageInfo settings.env settings.context
          selected.packageName true = .ok (some record) ∧ planRead = plan := by
        unfold readSelectedProvider at hread
        split at hread
        · rename_i found hfound
          injection hread with hread
          injection hread with hinfo hplan
          rw [hfound, hinfo]
          exact ⟨rfl, hplan.symm⟩
        · split at hread
          · injection hread with hread
            injection hread with hinfo _
            cases hinfo
          · cases hread
      obtain ⟨hname, htyped⟩ := queryAurPackageInfo_some hquery.1
      unfold currentProviderMetadata at hcurrent
      dsimp only at hcurrent
      rw [requireTypedAurPackageInfo_of_typed htyped, bind_eq_ok] at hcurrent
      obtain ⟨typed, htypedEq, hcurrent⟩ := hcurrent
      injection htypedEq with htypedEq
      rw [← htypedEq] at hcurrent
      obtain ⟨projected, hprojected⟩ := Option.isSome_iff_exists.mp htyped
      rw [hprojected] at hcurrent
      injection hcurrent with hcurrent
      injection hcurrent with hmetadata hcurrent
      injection hcurrent with hinfo hplan
      rw [← hmetadata] at hresult
      have hknown : Known settings record := ⟨true, by rw [hname]; exact hquery.1⟩
      have hidentity := projectAurConstraintMetadata_identity
        (record.constraintMetadata_projected projected hprojected)
      cases result with
      | failure kind => cases h
      | unknown reason =>
        injection h with h
        injection h with hrefresh hafter
        rw [← hrefresh, ← hafter, ← hplan]
        exact RefreshSpec.unknown _ _ hreadFrame
      | projection projection =>
        injection h with h
        injection h with hrefresh hafter
        obtain ⟨hprovider, hproviderName, hproviderBase, hsame, hcontract⟩ :=
          refreshAurProviderDependency_projection hresult
        rw [← hrefresh, ← hafter, ← hplan, hquery.2, ← hinfo]
        exact RefreshSpec.reread _ _ record horigin hprovider hsame hcontract
          hknown (hproviderName.trans hidentity.1)
          (hproviderBase.trans hidentity.2)

theorem retainUserSelection_frame (site : DependencySite)
    (provider : ProvidedDependency) (resolution : ProviderResolutionKind)
    (plan : BuildPlan) :
    retainUserSelection site provider resolution plan =
      { plan with
        provided := (retainUserSelection site provider resolution plan).provided } := by
  unfold retainUserSelection addBuildPlanProvidedDependency
  dsimp only
  split
  · split <;> rfl
  · rfl

end Moguet.Plan.Refresh
