import EvoCore.Runs
import EvoCore.Selections

namespace EvoCore.ActiveRows
open Runs Selections Tables

structure AdmissionPolicy where
  policyId : String
  name : String
  description : Option String
  authoredBy : String
  rulesJson : String
  active : Bool
  createdAtMs : Nat
deriving DecidableEq,Repr

structure PluginProfile where
  profileId : String
  name : String
  description : Option String
  authoredBy : String
  createdAtMs : Nat
  active : Bool
deriving DecidableEq,Repr

structure PluginProfileEntry where
  profileId : String
  pluginName : String
  state : String
deriving DecidableEq,Repr

-- The rows that a bundle replaces beside these two kinds; of each, its key is read.
structure UpdateChannel where
  target : String
  channel : String
  setAtMs : Nat
  setByPrincipal : String
deriving DecidableEq,Repr

structure PluginTag where
  pluginName : String
  tag : String
  setAtMs : Nat
deriving DecidableEq,Repr

structure RevokedCapability where
  pluginName : String
  capability : String
  revokedAtMs : Nat
  revokedByPrincipal : String
  reason : Option String
deriving DecidableEq,Repr

structure MigrationBundle where
  updateChannels : List UpdateChannel
  pluginTags : List PluginTag
  pluginProfiles : List (PluginProfile × List PluginProfileEntry)
  activeProfileId : Option String
  admissionPolicies : List AdmissionPolicy
  activePolicyId : Option String
  capabilityRevocations : List RevokedCapability

structure Store where
  updateChannels : Table String UpdateChannel
  pluginTags : Table (String × String) PluginTag
  pluginProfiles : Table String (PluginProfile × List PluginProfileEntry)
  admissionPolicies : Table String AdmissionPolicy
  revokedPluginCapabilities : Table (String × String) RevokedCapability

def Store.new : Store := ⟨∅,∅,∅,∅,∅⟩

def policyFlag : Flag AdmissionPolicy where
  read p := p.active
  write b p := {p with active := b}
  read_write _ _ := rfl
  write_read _ := rfl

def profileFlag : Flag (PluginProfile × List PluginProfileEntry) where
  read p := p.1.active
  write b p := ({p.1 with active := b},p.2)
  read_write _ _ := rfl
  write_read _ := rfl

inductive PersistenceError where
  | notFound (detail : String)
deriving DecidableEq,Repr

abbrev Answer := Except PersistenceError Unit

-- How `{:?}` writes a string.
variable (debug : String → String)

def Store.putAdmissionPolicy (s : Store) (policy : AdmissionPolicy) : Store :=
  {s with admissionPolicies := put policyFlag s.admissionPolicies policy.policyId policy}

def Store.deleteAdmissionPolicy (s : Store) (policyId : String) : Store :=
  {s with admissionPolicies := s.admissionPolicies.erase policyId}

def Store.setActiveAdmissionPolicy (s : Store) (policyId : Option String) : Answer × Store :=
  match activate policyFlag s.admissionPolicies policyId with
  | (none,rows) => (.ok (),{s with admissionPolicies := rows})
  | (some id,rows) => (.error (.notFound ("admission_policy " ++ debug id)),{s with admissionPolicies := rows})

def Store.getActiveAdmissionPolicy (s : Store) : Option AdmissionPolicy := getActive policyFlag s.admissionPolicies

def Store.putPluginProfile (s : Store) (profile : PluginProfile) (entries : List PluginProfileEntry) : Store :=
  {s with pluginProfiles := put profileFlag s.pluginProfiles profile.profileId (profile,entries)}

def Store.deletePluginProfile (s : Store) (profileId : String) : Store :=
  {s with pluginProfiles := s.pluginProfiles.erase profileId}

def Store.setActivePluginProfile (s : Store) (profileId : Option String) : Answer × Store :=
  match activate profileFlag s.pluginProfiles profileId with
  | (none,rows) => (.ok (),{s with pluginProfiles := rows})
  | (some id,rows) => (.error (.notFound ("plugin_profile " ++ debug id)),{s with pluginProfiles := rows})

def Store.getActivePluginProfile (s : Store) : Option PluginProfile := (getActive profileFlag s.pluginProfiles).map Prod.fst

-- An active id that none of the rows of its section has.
def dangling (active : Option String) (ids : List String) : Option String := active.filter fun id => !ids.contains id

def replaced {κ ρ : Type} [DecidableEq κ] (key : ρ → κ) (rows : List ρ) : Table κ ρ :=
  rows.foldl (fun t row => t.insert (key row) row) ∅

def Store.applyMigrationBundle (s : Store) (bundle : MigrationBundle) : Answer × Store :=
  match dangling bundle.activeProfileId (bundle.pluginProfiles.map fun p => p.1.profileId) with
  | some active => (.error (.notFound ("active profile id " ++ debug active ++ " not present in bundle")),s)
  | none =>
    match dangling bundle.activePolicyId (bundle.admissionPolicies.map AdmissionPolicy.policyId) with
    | some active => (.error (.notFound ("active policy id " ++ debug active ++ " not present in bundle")),s)
    | none =>
      (.ok (),{
        updateChannels := replaced UpdateChannel.target bundle.updateChannels
        pluginTags := replaced (fun row => (row.pluginName,row.tag)) bundle.pluginTags
        pluginProfiles := fill profileFlag bundle.activeProfileId (fun p => p.1.profileId) bundle.pluginProfiles
        admissionPolicies := fill policyFlag bundle.activePolicyId AdmissionPolicy.policyId bundle.admissionPolicies
        revokedPluginCapabilities := replaced (fun row => (row.pluginName,row.capability)) bundle.capabilityRevocations })

inductive Call where
  | putAdmissionPolicy (policy : AdmissionPolicy)
  | deleteAdmissionPolicy (policyId : String)
  | setActiveAdmissionPolicy (policyId : Option String)
  | putPluginProfile (profile : PluginProfile) (entries : List PluginProfileEntry)
  | deletePluginProfile (profileId : String)
  | setActivePluginProfile (profileId : Option String)
  | applyMigrationBundle (bundle : MigrationBundle)

def perform (s : Store) : Call → Answer × Store
  | .putAdmissionPolicy policy => (.ok (),s.putAdmissionPolicy policy)
  | .deleteAdmissionPolicy policyId => (.ok (),s.deleteAdmissionPolicy policyId)
  | .setActiveAdmissionPolicy policyId => s.setActiveAdmissionPolicy debug policyId
  | .putPluginProfile profile entries => (.ok (),s.putPluginProfile profile entries)
  | .deletePluginProfile profileId => (.ok (),s.deletePluginProfile profileId)
  | .setActivePluginProfile profileId => s.setActivePluginProfile debug profileId
  | .applyMigrationBundle bundle => s.applyMigrationBundle debug bundle

def step (s : Store) (call : Call) : Store := (perform debug s call).2

def Call.puts : Call → Bool
  | .putAdmissionPolicy _ => true
  | .putPluginProfile _ _ => true
  | _ => false

structure SameRows (s after : Store) : Prop where
  updateChannels : ∀ k,get after.updateChannels k = get s.updateChannels k
  pluginTags : ∀ k,get after.pluginTags k = get s.pluginTags k
  pluginProfiles : ∀ k,get after.pluginProfiles k = get s.pluginProfiles k
  admissionPolicies : ∀ k,get after.admissionPolicies k = get s.admissionPolicies k
  revokedPluginCapabilities : ∀ k,get after.revokedPluginCapabilities k = get s.revokedPluginCapabilities k

-- Zero or one active row of each kind, which the lookup of the active one finds.
structure OneActive (s : Store) : Prop where
  policies : Exclusive policyFlag s.admissionPolicies
  profiles : Exclusive profileFlag s.pluginProfiles

structure Selects (s : Store) (call : Call) : Prop where
  one : OneActive (step debug s call)
  policyFound : ∀ policy,(step debug s call).getActiveAdmissionPolicy = some policy ↔
    ∃ k,get (step debug s call).admissionPolicies k = some policy ∧ policy.active = true
  profileFound : ∀ profile,(step debug s call).getActivePluginProfile = some profile ↔
    ∃ k entries,get (step debug s call).pluginProfiles k = some (profile,entries) ∧ profile.active = true
  put : call.puts = true → (∀ k,Active policyFlag (step debug s call).admissionPolicies k ↔ Active policyFlag s.admissionPolicies k) ∧
    ∀ k,Active profileFlag (step debug s call).pluginProfiles k ↔ Active profileFlag s.pluginProfiles k
  atomic : ∀ error,(perform debug s call).1 = .error error → SameRows s (step debug s call)

-- Activation is asked of a row that is there, or where nothing is active.
def Known (s : Store) : Call → Prop
  | .setActiveAdmissionPolicy (some id) => (get s.admissionPolicies id).isSome = true ∨ s.getActiveAdmissionPolicy = none
  | .setActivePluginProfile (some id) => (get s.pluginProfiles id).isSome = true ∨ s.getActivePluginProfile = none
  | _ => True

variable {debug} {s : Store} {call : Call} {id : String} {error : PersistenceError}

theorem sameRows_refl : SameRows s s := ⟨fun _ => rfl,fun _ => rfl,fun _ => rfl,fun _ => rfl,fun _ => rfl⟩

theorem setActiveAdmissionPolicy_rows (target : Option String) : (s.setActiveAdmissionPolicy debug target).2 =
    {s with admissionPolicies := (activate policyFlag s.admissionPolicies target).2} := by
  rw [Store.setActiveAdmissionPolicy]
  split <;> rename_i outcome <;> rw [outcome]

theorem setActivePluginProfile_rows (target : Option String) : (s.setActivePluginProfile debug target).2 =
    {s with pluginProfiles := (activate profileFlag s.pluginProfiles target).2} := by
  rw [Store.setActivePluginProfile]
  split <;> rename_i outcome <;> rw [outcome]

theorem setActiveAdmissionPolicy_failed {target : Option String} : (∃ error,(s.setActiveAdmissionPolicy debug target).1 = .error error) ↔
    ∃ id,target = some id ∧ get s.admissionPolicies id = none := by
  simp only [← @activate_missing _ _ _ policyFlag _ _ _,Store.setActiveAdmissionPolicy]
  split <;> rename_i outcome <;> simp [outcome]

theorem setActivePluginProfile_failed {target : Option String} : (∃ error,(s.setActivePluginProfile debug target).1 = .error error) ↔
    ∃ id,target = some id ∧ get s.pluginProfiles id = none := by
  simp only [← @activate_missing _ _ _ profileFlag _ _ _,Store.setActivePluginProfile]
  split <;> rename_i outcome <;> simp [outcome]

theorem applyMigrationBundle_cases (bundle : MigrationBundle) :
    (s.applyMigrationBundle debug bundle).1 = .ok () ∧
      (s.applyMigrationBundle debug bundle).2.admissionPolicies =
        fill policyFlag bundle.activePolicyId AdmissionPolicy.policyId bundle.admissionPolicies ∧
      (s.applyMigrationBundle debug bundle).2.pluginProfiles =
        fill profileFlag bundle.activeProfileId (fun p => p.1.profileId) bundle.pluginProfiles ∨
    (s.applyMigrationBundle debug bundle).2 = s := by
  rw [Store.applyMigrationBundle]
  split
  · exact .inr rfl
  · split
    · exact .inr rfl
    · exact .inl ⟨rfl,rfl,rfl⟩

theorem exclusive_sub {κ ρ : Type} [DecidableEq κ] {flag : Flag ρ} {t later : Table κ ρ} (exclusive : Exclusive flag t)
    (sub : ∀ k,Active flag later k → Active flag t k) : Exclusive flag later :=
  fun a b one two => exclusive a b (sub a one) (sub b two)

theorem step_one (one : OneActive s) : OneActive (step debug s call) := by
  cases call with
  | putAdmissionPolicy policy => exact ⟨exclusive_sub one.policies fun _ => active_put.mp,one.profiles⟩
  | deleteAdmissionPolicy policyId => exact ⟨exclusive_sub one.policies fun _ active => (active_erase.mp active).2,one.profiles⟩
  | setActiveAdmissionPolicy target =>
    simp only [step,perform,setActiveAdmissionPolicy_rows]
    exact ⟨exclusive_activate,one.profiles⟩
  | putPluginProfile profile entries => exact ⟨one.policies,exclusive_sub one.profiles fun _ => active_put.mp⟩
  | deletePluginProfile profileId => exact ⟨one.policies,exclusive_sub one.profiles fun _ active => (active_erase.mp active).2⟩
  | setActivePluginProfile target =>
    simp only [step,perform,setActivePluginProfile_rows]
    exact ⟨one.policies,exclusive_activate⟩
  | applyMigrationBundle bundle =>
    simp only [step,perform]
    rcases applyMigrationBundle_cases bundle with ⟨_,policies,profiles⟩ | unchanged
    · exact ⟨policies ▸ exclusive_fill,profiles ▸ exclusive_fill⟩
    · rw [unchanged]
      exact one

theorem step_put (puts : call.puts = true) :
    (∀ k,Active policyFlag (step debug s call).admissionPolicies k ↔ Active policyFlag s.admissionPolicies k) ∧
      ∀ k,Active profileFlag (step debug s call).pluginProfiles k ↔ Active profileFlag s.pluginProfiles k := by
  cases call with
  | putAdmissionPolicy policy => exact ⟨fun _ => active_put,fun _ => Iff.rfl⟩
  | putPluginProfile profile entries => exact ⟨fun _ => Iff.rfl,fun _ => active_put⟩
  | _ => cases puts

-- A failed activation leaves the rows alone exactly where there was no flag to take away.
theorem policy_atomic {target : Option String} :
    (∀ error,(s.setActiveAdmissionPolicy debug target).1 = .error error → SameRows s (s.setActiveAdmissionPolicy debug target).2) ↔
      ∀ id,target = some id → get s.admissionPolicies id = none → s.getActiveAdmissionPolicy = none := by
  constructor
  · intro kept id asked missing
    obtain ⟨error,failed⟩ := (@setActiveAdmissionPolicy_failed debug _ _).mpr ⟨id,asked,missing⟩
    have same := (kept error failed).admissionPolicies
    rw [setActiveAdmissionPolicy_rows,activate_failed (activate_missing.mpr ⟨asked,missing⟩)] at same
    exact getActive_none.mpr (clear_same.mp same)
  · intro quiet error failed
    obtain ⟨id,asked,missing⟩ := setActiveAdmissionPolicy_failed.mp ⟨error,failed⟩
    rw [setActiveAdmissionPolicy_rows,activate_failed (activate_missing.mpr ⟨asked,missing⟩)]
    exact {sameRows_refl with admissionPolicies := clear_same.mpr (getActive_none.mp (quiet id asked missing))}

theorem profile_active : s.getActivePluginProfile = none ↔ getActive profileFlag s.pluginProfiles = none := by
  simp [Store.getActivePluginProfile]

theorem profile_atomic {target : Option String} :
    (∀ error,(s.setActivePluginProfile debug target).1 = .error error → SameRows s (s.setActivePluginProfile debug target).2) ↔
      ∀ id,target = some id → get s.pluginProfiles id = none → s.getActivePluginProfile = none := by
  constructor
  · intro kept id asked missing
    obtain ⟨error,failed⟩ := (@setActivePluginProfile_failed debug _ _).mpr ⟨id,asked,missing⟩
    have same := (kept error failed).pluginProfiles
    rw [setActivePluginProfile_rows,activate_failed (activate_missing.mpr ⟨asked,missing⟩)] at same
    exact profile_active.mpr (getActive_none.mpr (clear_same.mp same))
  · intro quiet error failed
    obtain ⟨id,asked,missing⟩ := setActivePluginProfile_failed.mp ⟨error,failed⟩
    rw [setActivePluginProfile_rows,activate_failed (activate_missing.mpr ⟨asked,missing⟩)]
    have none_ := getActive_none.mp (profile_active.mp (quiet id asked missing))
    exact {sameRows_refl with pluginProfiles := clear_same.mpr none_}

theorem asked_known {ρ : Type} {t : Table String ρ} {quiet : Prop} :
    (∀ k,some id = some k → get t k = none → quiet) ↔ (get t id).isSome = true ∨ quiet := by
  cases there : get t id <;> simp [there]

theorem step_atomic : (∀ error,(perform debug s call).1 = .error error → SameRows s (step debug s call)) ↔ Known s call := by
  cases call with
  | setActiveAdmissionPolicy target =>
    refine policy_atomic.trans ?_
    cases target with
    | none => simp [Known]
    | some id => exact asked_known
  | setActivePluginProfile target =>
    refine profile_atomic.trans ?_
    cases target with
    | none => simp [Known]
    | some id => exact asked_known
  | applyMigrationBundle bundle =>
    simp only [Known,iff_true]
    intro error failed
    simp only [step,perform] at failed ⊢
    rcases applyMigrationBundle_cases bundle with ⟨fine,_⟩ | unchanged
    · rw [fine] at failed
      cases failed
    · rw [unchanged]
      exact sameRows_refl
  | putAdmissionPolicy policy => simp [Known,perform]
  | deleteAdmissionPolicy policyId => simp [Known,perform]
  | putPluginProfile profile entries => simp [Known,perform]
  | deletePluginProfile profileId => simp [Known,perform]

theorem profile_found (one : OneActive s) {profile : PluginProfile} : s.getActivePluginProfile = some profile ↔
    ∃ k entries,get s.pluginProfiles k = some (profile,entries) ∧ profile.active = true := by
  simp only [Store.getActivePluginProfile,Option.map_eq_some_iff,getActive_some one.profiles]
  constructor
  · intro found
    obtain ⟨⟨other,entries⟩,⟨k,there,on⟩,rfl⟩ := found
    exact ⟨k,entries,there,on⟩
  · intro found
    obtain ⟨k,entries,there,on⟩ := found
    exact ⟨(profile,entries),⟨k,there,on⟩,rfl⟩

theorem selects_iff (one : OneActive s) : Selects debug s call ↔ Known s call := by
  have after := @step_one debug _ call one
  constructor
  · intro selects
    exact step_atomic.mp selects.atomic
  · intro known
    exact ⟨after,fun _ => getActive_some after.policies,fun _ => profile_found after,step_put,step_atomic.mpr known⟩

theorem selection_atomic_exactly (debug : String → String) (calls : List Call) :
    Guarded (step debug) (Selects debug) .new calls ↔ Guarded (step debug) Known .new calls := by
  apply guarded_iff OneActive
  · exact fun s call one => selects_iff one
  · exact fun s call one _ => step_one one
  · exact ⟨exclusive_empty,exclusive_empty⟩

def strictPolicy : AdmissionPolicy := ⟨"strict","Strict",none,"operator","{}",false,1000⟩

def quoted (text : String) : String := "\"" ++ text ++ "\""

-- A policy is active; then one that was never put is to be.
def mistyped : List Call :=
  [.putAdmissionPolicy strictPolicy,.setActiveAdmissionPolicy (some "strict"),.setActiveAdmissionPolicy (some "strct")]

theorem mistyped_cleared : ¬Guarded (step quoted) (Selects quoted) .new mistyped ∧
    (run (step quoted) .new (mistyped.take 2)).getActiveAdmissionPolicy = some {strictPolicy with active := true} ∧
    (perform quoted (run (step quoted) .new (mistyped.take 2)) (.setActiveAdmissionPolicy (some "strct"))).1 =
      .error (.notFound "admission_policy \"strct\"") ∧
    (run (step quoted) .new mistyped).getActiveAdmissionPolicy = none := by
  refine ⟨?_,by decide,by decide,by decide⟩
  intro selects
  have same := (selects.2.2.1.atomic (.notFound "admission_policy \"strct\"") (by decide)).admissionPolicies "strict"
  exact absurd same (by decide)

end EvoCore.ActiveRows
