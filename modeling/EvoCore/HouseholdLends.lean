import EvoCore.HouseholdProtection

namespace EvoCore.Household

-- The level in force before the lend, for a body that lifts it without naming one.
def HouseholdProtectionRuntime.restoreLevel (runtime : HouseholdProtectionRuntime) : ProtectionLevel :=
  runtime.policy.priorLevel.getD runtime.policy.level

structure SetBody where
  level : Option ProtectionLevel
  lend : Bool
  protectedGroups : Option (List String)

def HouseholdProtectionRuntime.requested (runtime : HouseholdProtectionRuntime) (body : SetBody) : HouseholdProtectionPolicy :=
  let level :=
    match body.level with
    | some level => level
    | none => if body.lend then runtime.policy.effectiveLevel else runtime.restoreLevel
  ⟨true,level,body.lend,body.protectedGroups.getD [],runtime.policy.priorLevel⟩

-- A change that widens needs a step-up sitting; `written` tells whether the file was stored.
def HouseholdProtectionRuntime.set (runtime : HouseholdProtectionRuntime) (body : SetBody) (sitting written : Bool) :
    HouseholdProtectionRuntime :=
  if runtime.policy.widensTo (runtime.requested body) && !sitting then runtime else runtime.apply (runtime.requested body) written

structure SetCall where
  body : SetBody
  sitting : Bool
  written : Bool

def HouseholdProtectionRuntime.calls (runtime : HouseholdProtectionRuntime) (sets : List SetCall) : HouseholdProtectionRuntime :=
  sets.foldl (fun runtime call => runtime.set call.body call.sitting call.written) runtime

def liftBody (marks : List String) : SetBody := ⟨none,false,some marks⟩

def SameScopes (table : HouseholdGroupTable) (bootstrap : List Capability) (one two : HouseholdProtectionPolicy) : Prop :=
  ∀ scope,scope ∈ protectedScopes one (some table) bootstrap ↔ scope ∈ protectedScopes two (some table) bootstrap

-- The scopes of the groups the low level protects by default.
def LowCovered (table : HouseholdGroupTable) (bootstrap : List Capability) (policy : HouseholdProtectionPolicy) : Prop :=
  (∀ key ∈ table.groupsForLevel .low,∀ scope ∈ table.scopesForGroup key,scope ∈ protectedScopes policy (some table) bootstrap) ∧
  (allGroups ∈ table.groupsForLevel .low →
    ∀ key ∈ table.groupKeys,∀ scope ∈ table.scopesForGroup key,scope ∈ protectedScopes policy (some table) bootstrap)

-- However often the lend is set again, lifting it with the marks of before brings back what was protected.
def LiftRestores (table : HouseholdGroupTable) (bootstrap : List Capability) (policy : HouseholdProtectionPolicy) : Prop :=
  ∀ sets : List SetCall,(∀ call ∈ sets,call.body.lend = true) →
    let lent := HouseholdProtectionRuntime.calls ⟨some table,bootstrap,policy⟩ sets
    lent.policy.lend = true → SameScopes table bootstrap (lent.set (liftBody policy.protectedGroups) true true).policy policy

def LendKeeps (table : HouseholdGroupTable) (bootstrap : List Capability) (policy : HouseholdProtectionPolicy) : Prop :=
  let stored := normaliseForStore policy (some table)
  normaliseForStore stored (some table) = stored ∧ SameScopes table bootstrap stored policy ∧
  (policy.lend = true → LowCovered table bootstrap policy) ∧ (policy.lend = false → LiftRestores table bootstrap policy)

def ScopesWithin (table : HouseholdGroupTable) (keys others : List String) : Prop :=
  ∀ key ∈ keys,∀ scope ∈ table.scopesForGroup key,∃ other ∈ others,scope ∈ table.scopesForGroup other

-- Where the wildcard, the floor and the marks do not meet, nothing is asked of the table.
def FloorFits (table : HouseholdGroupTable) (policy : HouseholdProtectionPolicy) : Prop :=
  let marks := marksOrDefault table policy
  let low := table.groupsForLevel .low
  (allGroups ∈ marks → ScopesWithin table low table.groupKeys ∧
    (table.groupKeys = [] → low = [] → expandAll table (table.groupsForLevel policy.effectiveLevel) = [])) ∧
  (allGroups ∉ marks → allGroups ∈ low →
    withFloor table table.groupKeys = withFloor table marks ∧ ScopesWithin table low table.groupKeys)

variable {table : HouseholdGroupTable} {keys low : List String} {runtime : HouseholdProtectionRuntime}

theorem pushed_covered (covered : ∀ key ∈ low,key ∈ keys) :
    low.foldl (fun keys key => if keys.contains key then keys else keys++[key]) keys = keys := by
  induction low with
  | nil => rfl
  | cons first rest rest_ih =>
    have there : keys.contains first = true := List.contains_iff_mem.mpr (covered first List.mem_cons_self)
    rw [List.foldl_cons,if_pos there]
    exact rest_ih fun key more => covered key (List.mem_cons_of_mem _ more)

theorem withFloor_covered (covered : ∀ key ∈ table.groupsForLevel .low,key ∈ keys) : withFloor table keys = keys := pushed_covered covered

theorem withFloor_twice : withFloor table (withFloor table keys) = withFloor table keys :=
  withFloor_covered fun _ listed => mem_withFloor.mpr (.inr listed)

theorem within_subset (subset : ∀ key ∈ keys,key ∈ others) : ScopesWithin table keys others :=
  fun key listed _ covers => ⟨key,subset key listed,covers⟩

theorem within_scopes (within : ScopesWithin table keys others) (found : ∃ key ∈ keys,scope ∈ table.scopesForGroup key) :
    ∃ key ∈ others,scope ∈ table.scopesForGroup key := by
  obtain ⟨key,listed,covers⟩ := found
  exact within key listed scope covers

theorem within_floor (within : ScopesWithin table (table.groupsForLevel .low) keys) : ScopesWithin table (withFloor table keys) keys := by
  intro key listed scope covers
  obtain old | floor := mem_withFloor.mp listed
  · exact ⟨key,old,covers⟩
  · exact within key floor scope covers

-- What is kept, said of the marks in force before the store and those in force after it.
def MarksKeep (table : HouseholdGroupTable) (marks next : List String) : Prop :=
  let selected := expandAll table (withFloor table marks)
  let reselected := expandAll table (withFloor table next)
  withFloor table (expandAll table next) = withFloor table (expandAll table marks) ∧
  (ScopesWithin table reselected selected ∧ ScopesWithin table selected reselected) ∧
  ScopesWithin table (table.groupsForLevel .low) selected ∧
  (allGroups ∈ table.groupsForLevel .low → ScopesWithin table table.groupKeys selected)

def marksAfter (table : HouseholdGroupTable) (marks defaults : List String) : List String :=
  let stored := withFloor table (expandAll table marks)
  if stored.isEmpty then defaults else stored

theorem marksAfter_kept (filled : withFloor table (expandAll table marks) ≠ []) :
    marksAfter table marks defaults = withFloor table (expandAll table marks) := by
  unfold marksAfter
  rw [if_neg]
  simpa using filled

theorem expand_floor_stable : withFloor table (expandAll table (withFloor table table.groupKeys)) = withFloor table table.groupKeys := by
  by_cases star : allGroups ∈ withFloor table table.groupKeys
  · rw [expandAll_star star]
  · rw [expandAll_plain star,withFloor_twice]

-- The marks name every group: the read answers the table's groups, the store adds the floor to them.
theorem keeps_star (star : allGroups ∈ marks) : MarksKeep table marks (marksAfter table marks defaults) ↔
    ScopesWithin table (table.groupsForLevel .low) table.groupKeys ∧
    (table.groupKeys = [] → table.groupsForLevel .low = [] → expandAll table defaults = []) := by
  have selected : expandAll table (withFloor table marks) = table.groupKeys := expandAll_star (mem_withFloor.mpr (.inl star))
  have stored : expandAll table marks = table.groupKeys := expandAll_star star
  simp only [MarksKeep,selected,stored]
  by_cases filled : withFloor table table.groupKeys = []
  · obtain ⟨bare,flat⟩ := withFloor_empty.mp filled
    have next : marksAfter table marks defaults = defaults := by rw [marksAfter,stored,filled]; rfl
    have floorless : ∀ keys,withFloor table keys = keys := fun keys => withFloor_covered (by simp [flat])
    simp only [next,floorless,bare,flat]
    constructor
    · intro keeps
      exact ⟨within_subset (fun _ listed => listed),fun _ _ => keeps.1⟩
    · intro fits
      have gone := fits.2 trivial trivial
      rw [gone]
      exact ⟨rfl,⟨within_subset (fun _ listed => listed),within_subset (fun _ listed => listed)⟩,
        within_subset (fun _ listed => listed),fun _ => within_subset (fun _ listed => listed)⟩
  · have next : marksAfter table marks defaults = withFloor table table.groupKeys := by
      rw [marksAfter_kept (by rwa [stored]),stored]
    rw [next,withFloor_twice,expand_floor_stable]
    constructor
    · intro keeps
      exact ⟨keeps.2.2.1,fun bare flat => absurd (withFloor_empty.mpr ⟨bare,flat⟩) filled⟩
    · intro fits
      refine ⟨rfl,?_,fits.1,fun _ => within_subset (fun _ listed => listed)⟩
      by_cases again : allGroups ∈ withFloor table table.groupKeys
      · rw [expandAll_star again]
        exact ⟨within_subset (fun _ listed => listed),within_subset (fun _ listed => listed)⟩
      · rw [expandAll_plain again]
        exact ⟨within_floor fits.1,within_subset fun _ listed => mem_withFloor.mpr (.inl listed)⟩

-- Only the floor names every group: it is expanded on read and stored as it stands.
theorem keeps_floor (plain : allGroups ∉ marks) (star : allGroups ∈ table.groupsForLevel .low) :
    MarksKeep table marks (marksAfter table marks defaults) ↔
      withFloor table table.groupKeys = withFloor table marks ∧ ScopesWithin table (table.groupsForLevel .low) table.groupKeys := by
  have floored : ∀ {keys},allGroups ∈ withFloor table keys := fun {keys} => mem_withFloor.mpr (.inr star)
  have stored : expandAll table marks = marks := expandAll_plain plain
  have filled : withFloor table marks ≠ [] := List.ne_nil_of_mem floored
  have next : marksAfter table marks defaults = withFloor table marks := by rw [marksAfter_kept (by rwa [stored]),stored]
  simp only [MarksKeep,next,stored,expandAll_star floored]
  constructor
  · intro keeps
    exact ⟨keeps.1,keeps.2.2.1⟩
  · intro fits
    exact ⟨fits.1,⟨within_subset (fun _ listed => listed),within_subset (fun _ listed => listed)⟩,fits.2,
      fun _ => within_subset (fun _ listed => listed)⟩

theorem keeps_plain (plain : allGroups ∉ marks) (bare : allGroups ∉ table.groupsForLevel .low) (unmarked : marks = [] → defaults = []) :
    MarksKeep table marks (marksAfter table marks defaults) := by
  have floored : ∀ {keys},allGroups ∉ keys → allGroups ∉ withFloor table keys := fun away there => (mem_withFloor.mp there).elim away bare
  have stored : expandAll table marks = marks := expandAll_plain plain
  have covered : ScopesWithin table (table.groupsForLevel .low) (withFloor table marks) := within_subset fun _ listed => mem_withFloor.mpr (.inr listed)
  have next : marksAfter table marks defaults = withFloor table marks := by
    by_cases empty : withFloor table marks = []
    · rw [marksAfter,stored,empty]
      exact unmarked (withFloor_empty.mp empty).1
    · rw [marksAfter_kept (by rwa [stored]),stored]
  simp only [MarksKeep,next,stored,withFloor_twice,expandAll_plain (floored plain)]
  exact ⟨trivial,⟨within_subset (fun _ listed => listed),within_subset (fun _ listed => listed)⟩,covered,fun star => absurd star bare⟩

theorem selected_lent (lent : policy.lend = true) :
    selectedKeys table policy = expandAll table (withFloor table (marksOrDefault table policy)) := by
  simp [selectedKeys,unlocked,floored,lent]

theorem normaliseForStore_lent (lent : policy.lend = true) : normaliseForStore policy (some table) =
    { policy with protectedGroups := withFloor table (expandAll table (marksOrDefault table policy)) } := by
  simp [normaliseForStore,lent]

theorem normaliseForStore_kept (free : policy.lend = false) : normaliseForStore policy (some table) = policy := by
  simp [normaliseForStore,free]

theorem sameScopes_selected : SameScopes table bootstrap one two ↔
    ScopesWithin table (selectedKeys table one) (selectedKeys table two) ∧ ScopesWithin table (selectedKeys table two) (selectedKeys table one) := by
  simp only [SameScopes,protectedScopes_table]
  constructor
  · intro same
    exact ⟨fun key listed scope covers => (same scope).mp ⟨key,listed,covers⟩,
      fun key listed scope covers => (same scope).mpr ⟨key,listed,covers⟩⟩
  · intro within scope
    exact ⟨within_scopes within.1,within_scopes within.2⟩

theorem lend_keeps (lent : policy.lend = true) : LendKeeps table bootstrap policy ↔
    MarksKeep table (marksOrDefault table policy) (marksAfter table (marksOrDefault table policy) (table.groupsForLevel policy.effectiveLevel)) := by
  simp only [LendKeeps,lent,Bool.true_eq_false,false_implies,and_true,true_implies,LowCovered,protectedScopes_table,normaliseForStore_lent,
    sameScopes_selected,selected_lent,HouseholdProtectionPolicy.mk.injEq,true_and]
  rfl

theorem marks_defaults : marksOrDefault table policy = [] → table.groupsForLevel policy.effectiveLevel = [] := by
  unfold marksOrDefault
  split
  · exact id
  · rename_i marked
    intro empty
    rw [empty] at marked
    exact absurd rfl marked

theorem lent_exact (lent : policy.lend = true) : LendKeeps table bootstrap policy ↔ FloorFits table policy := by
  rw [lend_keeps lent]
  unfold FloorFits
  by_cases star : allGroups ∈ marksOrDefault table policy
  · rw [keeps_star star]
    simp [star]
  · by_cases floor : allGroups ∈ table.groupsForLevel .low
    · rw [keeps_floor star floor]
      simp [star,floor]
    · simp only [keeps_plain star floor marks_defaults,star,floor,false_implies,implies_true,and_self]

-- While the lend is on, the level before it is kept in the policy.
def Remembers (table : HouseholdGroupTable) (bootstrap : List Capability) (policy : HouseholdProtectionPolicy) (runtime : HouseholdProtectionRuntime) : Prop :=
  runtime.table = some table ∧ runtime.bootstrap = bootstrap ∧
  (runtime.policy = policy ∨ (runtime.policy.lend = true ∧ runtime.policy.priorLevel = some policy.effectiveLevel))

theorem set_remembers (free : policy.lend = false) (lends : body.lend = true) (remembers : Remembers table bootstrap policy runtime) :
    Remembers table bootstrap policy (runtime.set body sitting written) := by
  unfold HouseholdProtectionRuntime.set
  split
  · exact remembers
  · unfold HouseholdProtectionRuntime.apply
    split
    · obtain ⟨tabled,booted,was⟩ := remembers
      refine ⟨tabled,booted,.inr ?_⟩
      rw [HouseholdProtectionRuntime.stored,tabled,normaliseForStore_lent lends]
      refine ⟨lends,?_⟩
      obtain same | ⟨already,prior⟩ := was
      · simp [HouseholdProtectionRuntime.requested,lends,same,free]
      · simp [HouseholdProtectionRuntime.requested,lends,already,prior]
    · exact remembers

theorem calls_remember (free : policy.lend = false) (lends : ∀ call ∈ sets,call.body.lend = true) (remembers : Remembers table bootstrap policy runtime) :
    Remembers table bootstrap policy (runtime.calls sets) := by
  induction sets generalizing runtime with
  | nil => exact remembers
  | cons call rest rest_ih =>
    exact rest_ih (fun later more => lends later (List.mem_cons_of_mem _ more)) (set_remembers free (lends call List.mem_cons_self) remembers)

theorem lift_restores (free : policy.lend = false) : LiftRestores table bootstrap policy := by
  intro sets lends lent raised
  have before : Remembers table bootstrap policy ⟨some table,bootstrap,policy⟩ := ⟨rfl,rfl,.inl rfl⟩
  have remembers := calls_remember free lends before
  obtain ⟨tabled,_,was⟩ := remembers
  obtain same | ⟨_,prior⟩ := was
  · exact absurd raised (by rw [show lent.policy = policy from same,free]; decide)
  · have level : lent.restoreLevel = policy.effectiveLevel := by
      rw [HouseholdProtectionRuntime.restoreLevel,show lent.policy.priorLevel = _ from prior]
      rfl
    have lifted : (lent.set (liftBody policy.protectedGroups) true true).policy =
        ⟨true,policy.effectiveLevel,false,policy.protectedGroups,none⟩ := by
      simp [HouseholdProtectionRuntime.set,HouseholdProtectionRuntime.apply,HouseholdProtectionRuntime.stored,HouseholdProtectionRuntime.requested,
        liftBody,level,normaliseForStore]
    rw [lifted]
    intro scope
    simp only [protectedScopes_table,selectedKeys,unlocked,floored,marksOrDefault,HouseholdProtectionPolicy.effectiveLevel,free]
    rfl

theorem lend_keeps_exact (table : HouseholdGroupTable) (bootstrap : List Capability) (policy : HouseholdProtectionPolicy) :
    LendKeeps table bootstrap policy ↔ policy.lend = true → FloorFits table policy := by
  cases lent : policy.lend with
  | true => simp [lent_exact lent]
  | false =>
    simp only [Bool.false_eq_true,false_implies,iff_true,LendKeeps,normaliseForStore_kept lent,lent,true_implies,true_and]
    exact ⟨fun _ => Iff.rfl,lift_restores lent⟩

-- The low level names every group by the wildcard; or one that is not among the table's keys.
def wildFloor : HouseholdGroupTable := { twoGroups with groupsForLevel := fun level => if level = .low then ["*"] else [] }
def strayFloor : HouseholdGroupTable := { twoGroups with groupKeys := ["beta"] }

def lending (groups : List String) : HouseholdProtectionPolicy := ⟨true,.standard,true,groups,none⟩

-- Storing twice is not storing once; the scope of a low group is protected neither before the
-- store nor, on the second table, the same after it.
theorem floor_misses : ¬LendKeeps wildFloor [] (lending ["beta"]) ∧ ¬LendKeeps strayFloor [] (lending ["*"]) := by
  constructor
  · intro keeps
    exact absurd keeps.1 (by decide)
  · intro keeps
    exact absurd ((keeps.2.1 "network_admin").mp (by decide)) (by decide)

end EvoCore.Household
