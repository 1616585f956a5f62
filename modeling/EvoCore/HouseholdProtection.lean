import Mathlib

namespace EvoCore.Household

inductive ProtectionLevel where
  | open_
  | low
  | standard
  | strict
  deriving DecidableEq,Repr

def ProtectionLevel.rank : ProtectionLevel → Nat
  | .open_ => 0
  | .low => 1
  | .standard => 2
  | .strict => 3

structure HouseholdProtectionPolicy where
  chosen : Bool
  level : ProtectionLevel
  lend : Bool
  protectedGroups : List String
  priorLevel : Option ProtectionLevel
  deriving DecidableEq,Repr

def HouseholdProtectionPolicy.default : HouseholdProtectionPolicy := ⟨false,.open_,false,[],none⟩

def HouseholdProtectionPolicy.effectiveLevel (p : HouseholdProtectionPolicy) : ProtectionLevel :=
  if p.chosen then p.level else .open_

def HouseholdProtectionPolicy.widensTo (p next : HouseholdProtectionPolicy) : Bool :=
  if p.lend && !next.lend then true else next.effectiveLevel.rank < p.effectiveLevel.rank

-- The table of a distribution, whose answers do not change while the steward runs.
structure HouseholdGroupTable where
  groupKeys : List String
  scopesForGroup : String → List String
  groupsForLevel : ProtectionLevel → List String

inductive Capability where
  | read (scope : String)
  | write (scope : String)
  | stepUp (scope : String)
  deriving DecidableEq,Repr

-- Sets of scopes are lists of which only membership is asked.
def stepUpScopes (bootstrap : List Capability) : List String :=
  bootstrap.filterMap fun
    | .stepUp scope => some scope
    | _ => none

def defaultProtectedScopes (level : ProtectionLevel) (bootstrap : List Capability) : List String :=
  match level with
  | .open_ => []
  | .low => ["network_admin"]
  | .standard => ["network_admin","system_admin","plugins_admin"]
  | .strict => stepUpScopes bootstrap

def allGroups : String := "*"

-- The keys not yet there are pushed at the end.
def withFloor (table : HouseholdGroupTable) (keys : List String) : List String :=
  (table.groupsForLevel .low).foldl (fun keys key => if keys.contains key then keys else keys++[key]) keys

def expandAll (table : HouseholdGroupTable) (keys : List String) : List String :=
  if keys.any (· == allGroups) then table.groupKeys else keys

def marksOrDefault (table : HouseholdGroupTable) (policy : HouseholdProtectionPolicy) : List String :=
  if policy.protectedGroups.isEmpty then table.groupsForLevel policy.effectiveLevel else policy.protectedGroups

def floored (table : HouseholdGroupTable) (policy : HouseholdProtectionPolicy) (keys : List String) : List String :=
  if policy.lend then withFloor table keys else keys

def unlocked (policy : HouseholdProtectionPolicy) : Bool := !policy.lend && policy.effectiveLevel = .open_

def selectedKeys (table : HouseholdGroupTable) (policy : HouseholdProtectionPolicy) : List String :=
  if unlocked policy then [] else expandAll table (floored table policy (marksOrDefault table policy))

-- The rung of the built-in ladder: lending an open box keeps the low surfaces.
def ladderLevel (policy : HouseholdProtectionPolicy) : ProtectionLevel :=
  if policy.lend && policy.effectiveLevel = .open_ then .low else policy.effectiveLevel

def protectedScopes (policy : HouseholdProtectionPolicy) (table : Option HouseholdGroupTable) (bootstrap : List Capability) : List String :=
  if unlocked policy then []
  else
    match table with
    | none => defaultProtectedScopes (ladderLevel policy) bootstrap
    | some table => (expandAll table (floored table policy (marksOrDefault table policy))).flatMap table.scopesForGroup

def isScopeProtected (policy : HouseholdProtectionPolicy) (table : Option HouseholdGroupTable) (bootstrap : List Capability)
    (scope : String) : Bool := (protectedScopes policy table bootstrap).contains scope

def normaliseForStore (policy : HouseholdProtectionPolicy) (table : Option HouseholdGroupTable) : HouseholdProtectionPolicy :=
  if !policy.lend then policy
  else
    match table with
    | none => policy
    | some table => { policy with protectedGroups := withFloor table (expandAll table (marksOrDefault table policy)) }

structure HouseholdProtectionRuntime where
  table : Option HouseholdGroupTable
  bootstrap : List Capability
  policy : HouseholdProtectionPolicy

-- What `apply` stores for a requested policy.
def HouseholdProtectionRuntime.stored (runtime : HouseholdProtectionRuntime) (next : HouseholdProtectionPolicy) : HouseholdProtectionPolicy :=
  let prior := if next.lend && !runtime.policy.lend then some runtime.policy.effectiveLevel else next.priorLevel
  normaliseForStore { next with chosen := true,priorLevel := if next.lend then prior else none } runtime.table

def HouseholdProtectionRuntime.apply (runtime : HouseholdProtectionRuntime) (next : HouseholdProtectionPolicy) (written : Bool) :
    HouseholdProtectionRuntime :=
  if written then { runtime with policy := runtime.stored next } else runtime

def HouseholdProtectionRuntime.protects (runtime : HouseholdProtectionRuntime) (scope : String) : Bool :=
  isScopeProtected runtime.policy runtime.table runtime.bootstrap scope

-- Whatever the change unlocks needs the device password.
def Guarded (runtime : HouseholdProtectionRuntime) (next : HouseholdProtectionPolicy) : Prop :=
  (∃ scope,runtime.protects scope = true ∧ (runtime.apply next true).protects scope = false) → runtime.policy.widensTo next = true

-- The groups a policy names itself: its marks, or its level's where it has none.
def ownGroups (table : HouseholdGroupTable) (level : ProtectionLevel) (marks : List String) : List String :=
  if marks = [] then table.groupsForLevel level else marks

-- The wildcard stands for every group of the table.
def Means (table : HouseholdGroupTable) (keys : List String) (key : String) : Prop :=
  if allGroups ∈ keys then key ∈ table.groupKeys else key ∈ keys

-- What a request asks for. A lend adds the low groups; a wildcard among these, or among the table's own keys,
-- stands for every group once more; and a wildcard over no group at all falls back to the level.
def Asked (table : HouseholdGroupTable) (next : HouseholdProtectionPolicy) (key : String) : Prop :=
  let own := ownGroups table next.level next.protectedGroups
  let low := table.groupsForLevel .low
  if next.lend = false then Means table own key
  else if allGroups ∈ low ∨ (allGroups ∈ own ∧ allGroups ∈ table.groupKeys) then key ∈ table.groupKeys
  else Means table own key ∨ key ∈ low ∨
    (allGroups ∈ own ∧ table.groupKeys = [] ∧ low = [] ∧ Means table (table.groupsForLevel next.level) key)

-- With a table, the scopes of the groups in force are scopes of groups asked for; on the built-in ladder, a step
-- to the top finds the scopes below it among the step-up ones.
def Covers (runtime : HouseholdProtectionRuntime) (next : HouseholdProtectionPolicy) : Prop :=
  match runtime.table with
  | some table =>
    ∀ key ∈ selectedKeys table runtime.policy,∀ scope ∈ table.scopesForGroup key,
      ∃ other,Asked table next other ∧ scope ∈ table.scopesForGroup other
  | none =>
    next.level = .strict → ∀ scope ∈ protectedScopes runtime.policy none runtime.bootstrap,.stepUp scope ∈ runtime.bootstrap

variable {runtime : HouseholdProtectionRuntime} {next policy : HouseholdProtectionPolicy} {bootstrap : List Capability}
  {table : HouseholdGroupTable} {keys : List String}

theorem mem_stepUpScopes : scope ∈ stepUpScopes bootstrap ↔ .stepUp scope ∈ bootstrap := by
  simp only [stepUpScopes,List.mem_filterMap]
  constructor
  · intro found
    obtain ⟨cap,member,named⟩ := found
    cases cap with
    | stepUp other =>
      cases named
      exact member
    | read other => cases named
    | write other => cases named
  · intro member
    exact ⟨_,member,rfl⟩

theorem protectedScopes_ladder : protectedScopes policy none bootstrap = defaultProtectedScopes (ladderLevel policy) bootstrap := by
  unfold protectedScopes
  split
  · rename_i free
    simp only [unlocked,Bool.and_eq_true,Bool.not_eq_true',decide_eq_true_eq] at free
    simp [ladderLevel,free.1,free.2,defaultProtectedScopes]
  · rfl

theorem protectedScopes_table : scope ∈ protectedScopes policy (some table) bootstrap ↔
    ∃ key ∈ selectedKeys table policy,scope ∈ table.scopesForGroup key := by
  unfold protectedScopes selectedKeys
  split <;> simp

theorem ladderLevel_rank : (ladderLevel policy).rank = max policy.effectiveLevel.rank (if policy.lend then 1 else 0) := by
  unfold ladderLevel
  cases policy.lend <;> cases policy.effectiveLevel <;> rfl

theorem ladder_mono (lower : low.rank ≤ high.rank) (below : high ≠ .strict) (present : scope ∈ defaultProtectedScopes low bootstrap) :
    scope ∈ defaultProtectedScopes high bootstrap := by
  cases high with
  | strict => exact absurd rfl below
  | open_ | low | standard => cases low <;> simp_all [defaultProtectedScopes,ProtectionLevel.rank]

theorem not_widens (still : runtime.policy.widensTo next = false) :
    (runtime.policy.lend = true → next.lend = true) ∧ runtime.policy.effectiveLevel.rank ≤ next.level.rank := by
  unfold HouseholdProtectionPolicy.widensTo at still
  split at still
  · cases still
  · rename_i kept
    have lower : next.effectiveLevel.rank ≤ next.level.rank := by
      unfold HouseholdProtectionPolicy.effectiveLevel
      split
      · exact Nat.le_refl _
      · exact Nat.zero_le _
    have order := of_decide_eq_false still
    refine ⟨?_,by omega⟩
    simpa using kept

theorem normaliseForStore_bare : normaliseForStore policy none = policy := by
  unfold normaliseForStore
  split <;> rfl

theorem stored_ladder (bare : runtime.table = none) :
    (ladderLevel (runtime.stored next)).rank = max next.level.rank (if next.lend then 1 else 0) := by
  rw [ladderLevel_rank,HouseholdProtectionRuntime.stored,bare,normaliseForStore_bare]
  rfl

theorem rank_injective (same : one.rank = ProtectionLevel.rank two) : one = two := by
  cases one <;> cases two <;> first | rfl | cases same

theorem ladder_kept (bare : runtime.table = none) (still : runtime.policy.widensTo next = false) (below : next.level ≠ .strict)
    (present : scope ∈ protectedScopes runtime.policy none runtime.bootstrap) :
    scope ∈ protectedScopes (runtime.stored next) none runtime.bootstrap := by
  rw [protectedScopes_ladder] at present ⊢
  obtain ⟨lends,order⟩ := not_widens still
  have after : (ladderLevel (runtime.stored next)).rank = max next.level.rank (if next.lend then 1 else 0) := stored_ladder bare
  apply ladder_mono ?_ ?_ present
  · rw [after,ladderLevel_rank]
    cases lent : runtime.policy.lend with
    | false => simp; omega
    | true => simp [lends lent]; omega
  · intro top
    rw [top] at after
    have short : next.level.rank ≠ 3 := fun high => below (rank_injective high)
    have bound : next.level.rank ≤ 3 := by cases next.level <;> decide
    have lift : (if next.lend = true then 1 else 0) ≤ 1 := by split <;> omega
    change 3 = max next.level.rank _ at after
    omega

theorem ladder_top (bare : runtime.table = none) (top : next.level = .strict) :
    scope ∈ protectedScopes (runtime.stored next) none runtime.bootstrap ↔ .stepUp scope ∈ runtime.bootstrap := by
  have after : (ladderLevel (runtime.stored next)).rank = max next.level.rank (if next.lend then 1 else 0) := stored_ladder bare
  have level : ladderLevel (runtime.stored next) = .strict := by
    apply rank_injective
    rw [after,top]
    split <;> rfl
  rw [protectedScopes_ladder,level,← mem_stepUpScopes]
  rfl

theorem mem_pushed {keys low : List String} {key : String} :
    key ∈ low.foldl (fun keys key => if keys.contains key then keys else keys++[key]) keys ↔ key ∈ keys ∨ key ∈ low := by
  induction low generalizing keys with
  | nil => simp
  | cons first rest rest_ih =>
    rw [List.foldl_cons,rest_ih,List.mem_cons]
    split
    · rename_i there
      rw [List.contains_iff_mem] at there
      constructor
      · intro found
        exact found.imp id Or.inr
      · intro found
        obtain old | rfl | more := found
        · exact .inl old
        · exact .inl there
        · exact .inr more
    · simp [or_assoc]

@[simp] theorem mem_withFloor : key ∈ withFloor table keys ↔ key ∈ keys ∨ key ∈ table.groupsForLevel .low := mem_pushed

theorem withFloor_empty : withFloor table keys = [] ↔ keys = [] ∧ table.groupsForLevel .low = [] := by
  simp only [List.eq_nil_iff_forall_not_mem,mem_withFloor,not_or,forall_and]

theorem expandAll_star (star : allGroups ∈ keys) : expandAll table keys = table.groupKeys := by
  rw [expandAll,if_pos]
  exact List.any_eq_true.mpr ⟨_,star,beq_self_eq_true _⟩

theorem expandAll_plain (plain : allGroups ∉ keys) : expandAll table keys = keys := by
  rw [expandAll,if_neg]
  simpa using plain

theorem mem_expandAll : key ∈ expandAll table keys ↔ Means table keys key := by
  unfold Means
  split
  · rename_i star
    rw [expandAll_star star]
  · rename_i plain
    rw [expandAll_plain plain]

theorem star_means : Means table keys allGroups ↔ allGroups ∈ keys ∧ allGroups ∈ table.groupKeys := by
  unfold Means
  split <;> simp_all

theorem lent_asked (lent : next.lend = true) :
    (let stored := withFloor table (expandAll table (ownGroups table next.level next.protectedGroups))
     key ∈ expandAll table (withFloor table (if stored.isEmpty then table.groupsForLevel next.level else stored))) ↔
      Asked table next key := by
  simp only [Asked,lent,Bool.true_eq_false,if_false,mem_expandAll]
  by_cases empty : withFloor table (expandAll table (ownGroups table next.level next.protectedGroups)) = []
  · obtain ⟨ownless,lowless⟩ := withFloor_empty.mp empty
    have bare : ∀ keys,withFloor table keys = keys := fun keys => by simp [withFloor,lowless]
    rw [empty,bare,lowless]
    by_cases star : allGroups ∈ ownGroups table next.level next.protectedGroups
    · rw [expandAll_star star] at ownless
      simp [ownless,star,Means]
    · rw [expandAll_plain star] at ownless
      have level : table.groupsForLevel next.level = [] := by
        unfold ownGroups at ownless
        split at ownless
        · exact ownless
        · rename_i marked
          exact absurd ownless marked
      simp [ownless,level,Means]
  · rw [if_neg (by simpa using empty)]
    have whole : ∀ key,key ∈ withFloor table (expandAll table (ownGroups table next.level next.protectedGroups)) ↔
        Means table (ownGroups table next.level next.protectedGroups) key ∨ key ∈ table.groupsForLevel .low := by
      intro key
      rw [mem_withFloor,mem_expandAll]
    have filled : ¬ (allGroups ∈ ownGroups table next.level next.protectedGroups ∧ table.groupKeys = [] ∧
        table.groupsForLevel .low = []) := by
      intro all
      exact empty (withFloor_empty.mpr ⟨(expandAll_star all.1).trans all.2.1,all.2.2⟩)
    have last : ¬ (allGroups ∈ ownGroups table next.level next.protectedGroups ∧ table.groupKeys = [] ∧
        table.groupsForLevel .low = [] ∧ Means table (table.groupsForLevel next.level) key) :=
      fun all => filled ⟨all.1,all.2.1,all.2.2.1⟩
    have stars : allGroups ∈ withFloor table (withFloor table (expandAll table (ownGroups table next.level next.protectedGroups))) ↔
        allGroups ∈ table.groupsForLevel .low ∨
          (allGroups ∈ ownGroups table next.level next.protectedGroups ∧ allGroups ∈ table.groupKeys) := by
      rw [mem_withFloor,whole,star_means,or_assoc,or_self,or_comm]
    by_cases all : allGroups ∈ table.groupsForLevel .low ∨
        (allGroups ∈ ownGroups table next.level next.protectedGroups ∧ allGroups ∈ table.groupKeys)
    · rw [Means,if_pos (stars.mpr all),if_pos all]
    · rw [Means,if_neg (mt stars.mp all),if_neg all,mem_withFloor,whole,or_assoc,or_self]
      constructor
      · intro found
        exact found.imp_right .inl
      · intro found
        obtain own | low | fallen := found
        · exact .inl own
        · exact .inr low
        · exact absurd fallen last

theorem stored_asked (tabled : runtime.table = some table) (still : runtime.policy.widensTo next = false)
    (selected : selectedKeys table runtime.policy ≠ []) : key ∈ selectedKeys table (runtime.stored next) ↔ Asked table next key := by
  obtain ⟨lends,order⟩ := not_widens still
  cases lent : next.lend with
  | true =>
    rw [← lent_asked lent]
    simp [selectedKeys,unlocked,floored,marksOrDefault,ownGroups,HouseholdProtectionRuntime.stored,normaliseForStore,tabled,lent,
      HouseholdProtectionPolicy.effectiveLevel]
  | false =>
    have higher : next.level ≠ .open_ := by
      intro opened
      rw [opened] at order
      have bottom : runtime.policy.effectiveLevel = .open_ := rank_injective (Nat.le_zero.mp order)
      have free : runtime.policy.lend = false := Bool.eq_false_iff.mpr fun lending => by simp [lends lending] at lent
      simp [selectedKeys,unlocked,bottom,free] at selected
    rw [Asked,if_pos lent,← mem_expandAll]
    simp [selectedKeys,unlocked,floored,marksOrDefault,ownGroups,HouseholdProtectionRuntime.stored,normaliseForStore,lent,
      HouseholdProtectionPolicy.effectiveLevel,higher]

-- A change that widens nothing keeps what is protected exactly when it is covered.
theorem covers_exact (still : runtime.policy.widensTo next = false) :
    (∀ scope,runtime.protects scope = true → (runtime.apply next true).protects scope = true) ↔ Covers runtime next := by
  simp only [HouseholdProtectionRuntime.protects,isScopeProtected,List.contains_iff_mem,HouseholdProtectionRuntime.apply,if_true,Covers]
  cases tabled : runtime.table with
  | some table =>
    simp only [protectedScopes_table]
    constructor
    · intro keeps key selected scope listed
      obtain ⟨other,among,lists⟩ := keeps scope ⟨key,selected,listed⟩
      exact ⟨other,(stored_asked tabled still (List.ne_nil_of_mem selected)).mp among,lists⟩
    · intro covers scope protected_
      obtain ⟨key,selected,listed⟩ := protected_
      obtain ⟨other,asked,lists⟩ := covers key selected scope listed
      exact ⟨other,(stored_asked tabled still (List.ne_nil_of_mem selected)).mpr asked,lists⟩
  | none =>
    by_cases top : next.level = .strict
    · simp [ladder_top tabled top,top]
    · simp only [top,false_implies,iff_true]
      exact fun scope present => ladder_kept tabled still top present

theorem guarded_exact (runtime : HouseholdProtectionRuntime) (next : HouseholdProtectionPolicy) :
    Guarded runtime next ↔ runtime.policy.widensTo next = true ∨ Covers runtime next := by
  unfold Guarded
  cases widens : runtime.policy.widensTo next with
  | true => simp
  | false =>
    rw [← covers_exact widens]
    simp

def twoGroups : HouseholdGroupTable :=
  ⟨["alpha","beta"],fun key => if key = "alpha" then ["network_admin"] else if key = "beta" then ["system_admin"] else [],
    fun level => match level with
      | .open_ => []
      | .low => ["alpha"]
      | _ => ["alpha","beta"]⟩

def firstStart (table : Option HouseholdGroupTable) (bootstrap : List Capability) : HouseholdProtectionRuntime :=
  ⟨table,bootstrap,.default⟩

def marked (groups : List String) : HouseholdProtectionPolicy := ⟨true,.standard,false,groups,none⟩

-- Taking a mark away; and, where the bootstrap set has no step-up scopes, the step from standard to strict.
theorem unlocked_unasked :
    ¬Guarded ((firstStart (some twoGroups) []).apply (marked ["alpha","beta"]) true) (marked ["alpha"]) ∧
    ¬Guarded ((firstStart none []).apply (marked []) true) { marked [] with level := .strict } := by
  constructor
  · intro guarded
    exact absurd (guarded ⟨"system_admin",by decide,by decide⟩) (by decide)
  · intro guarded
    exact absurd (guarded ⟨"network_admin",by decide,by decide⟩) (by decide)

end EvoCore.Household
