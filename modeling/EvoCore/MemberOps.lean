import EvoCore.DomainProjection
import EvoCore.IdealCrates

namespace EvoCore.MemberOps
open DomainEntries DomainProjection Std

variable {view next : DomainStateView} {change : String → GroupProjection → GroupProjection} {w : DomainWitness}
  {row : GroupProjection} {deviceId source target groupId g : String} {now : UInt64}

-- A move whose device has a trust row and whose groups there are.
def Known (view : DomainStateView) (deviceId source target : String) : Prop :=
  view.trust[deviceId]? ≠ none ∧ view.groups[source]? ≠ none ∧ view.groups[target]? ≠ none

def Member (view : DomainStateView) (deviceId groupId : String) : Prop :=
  ∃ row,view.groups[groupId]? = some row ∧ deviceId ∈ row.members

-- The documented rules of a move, over the views before and after.
structure MoveRules (before after : DomainStateView) (deviceId source target : String) : Prop where
  unknownDevice : before.trust[deviceId]? = none → after.groups = before.groups
  unknownGroup : before.groups[source]? = none ∨ before.groups[target]? = none → after.groups = before.groups
  arrives : Known before deviceId source target → Member after deviceId target
  leaves : Known before deviceId source target → source ≠ target → ¬ Member after deviceId source
  others : Known before deviceId source target → ∀ groupId : String,groupId ≠ source → groupId ≠ target →
    (after.groups[groupId]?).map (·.members) = (before.groups[groupId]?).map (·.members)
  stays : (∃ groupId,Member before deviceId groupId) → ∃ groupId,Member after deviceId groupId

def Documented (view : DomainStateView) (w : DomainWitness) : Prop :=
  match w.op with
  | .addMemberToGroup _ deviceId => view.trust[deviceId]? = none → (view.apply w).groups = view.groups
  | .moveMember deviceId source target => MoveRules view (view.apply w) deviceId source target
  | _ => True

-- The groups a move names, as far as there are any, are already as it leaves them.
def Settled (view : DomainStateView) (deviceId source target : String) (now : UInt64) : Prop :=
  if source = target then
    ∀ row,view.groups[source]? = some row → row.members = row.members.filter (· ≠ deviceId) ++ [deviceId] ∧ row.modifiedAtNs = now
  else
    (∀ row,view.groups[source]? = some row → deviceId ∉ row.members ∧ row.modifiedAtNs = now) ∧
    ∀ row,view.groups[target]? = some row → deviceId ∈ row.members ∧ row.modifiedAtNs = now

-- An op names a device with a trust row and, for a move, two groups there are; or there is nothing for it to change.
def Named (view : DomainStateView) (w : DomainWitness) : Prop :=
  match w.op with
  | .addMemberToGroup groupId deviceId => view.trust[deviceId]? ≠ none ∨
      ∀ row,view.groups[groupId]? = some row → deviceId ∈ row.members ∧ row.modifiedAtNs = w.tsNs
  | .moveMember deviceId source target =>
      Known view deviceId source target ∨ Settled view deviceId source target w.tsNs
  | _ => True

theorem joined (row : GroupProjection) (deviceId : String) (now : UInt64) : deviceId ∈ (row.join deviceId now).members := by
  unfold GroupProjection.join
  dsimp only
  split
  · rename_i there
    simpa using there
  · exact List.mem_append_right _ (List.mem_singleton_self _)

theorem dropped (row : GroupProjection) (deviceId : String) (now : UInt64) : deviceId ∉ (row.drop deviceId now).members := by
  simp [GroupProjection.drop]

theorem join_same : row.join deviceId now = row ↔ deviceId ∈ row.members ∧ row.modifiedAtNs = now := by
  constructor
  · intro same
    exact ⟨same ▸ joined row deviceId now,(congrArg GroupProjection.modifiedAtNs same).symm⟩
  · rintro ⟨there,rfl⟩
    have any : row.members.any (· == deviceId) = true := by simpa using there
    simp [GroupProjection.join,any]

theorem drop_same : row.drop deviceId now = row ↔ deviceId ∉ row.members ∧ row.modifiedAtNs = now := by
  constructor
  · intro same
    exact ⟨same ▸ dropped row deviceId now,(congrArg GroupProjection.modifiedAtNs same).symm⟩
  · rintro ⟨gone,rfl⟩
    have all : row.members.filter (· ≠ deviceId) = row.members := by
      refine List.filter_eq_self.mpr fun m member => ?_
      have other : m ≠ deviceId := fun same => gone (same ▸ member)
      simpa using other
    simp only [GroupProjection.drop,all]

theorem drop_join_members (row : GroupProjection) (deviceId : String) (now : UInt64) :
    ((row.drop deviceId now).join deviceId now).members = row.members.filter (· ≠ deviceId) ++ [deviceId] := by
  simp [GroupProjection.join,GroupProjection.drop]

theorem drop_join_same : (row.drop deviceId now).join deviceId now = row ↔
    row.members = row.members.filter (· ≠ deviceId) ++ [deviceId] ∧ row.modifiedAtNs = now := by
  constructor
  · intro same
    refine ⟨?_,(congrArg GroupProjection.modifiedAtNs same).symm⟩
    rw [← drop_join_members row deviceId now,same]
  · rintro ⟨members,rfl⟩
    have back := drop_join_members row deviceId row.modifiedAtNs
    rw [← members] at back
    calc (row.drop deviceId row.modifiedAtNs).join deviceId row.modifiedAtNs
        = {row with members := ((row.drop deviceId row.modifiedAtNs).join deviceId row.modifiedAtNs).members} := rfl
      _ = row := by rw [back]

def moved (deviceId source target : String) (now : UInt64) (groupId : String) (row : GroupProjection) : GroupProjection :=
  let left := if groupId = source then row.drop deviceId now else row
  if groupId = target then left.join deviceId now else left

theorem move_row (op : w.op = .moveMember deviceId source target) (groupId : String) :
    (view.apply w).groups[groupId]? = (view.groups[groupId]?).map (moved deviceId source target w.tsNs groupId) := by
  simp only [DomainStateView.apply,op,ExtTreeMap.getElem?_modify,LawfulEqCmp.compare_eq_iff_eq]
  unfold moved
  by_cases joins : groupId = target
  · by_cases leaves : groupId = source
    · subst joins leaves
      simp [Function.comp_def]
    · subst joins
      simp [leaves,Ne.symm leaves]
  · by_cases leaves : groupId = source
    · subst leaves
      simp [joins,Ne.symm joins]
    · simp [joins,leaves,Ne.symm joins,Ne.symm leaves]

theorem add_row (op : w.op = .addMemberToGroup groupId deviceId) (g : String) :
    (view.apply w).groups[g]? = if g = groupId then (view.groups[g]?).map (·.join deviceId w.tsNs) else view.groups[g]? := by
  simp only [DomainStateView.apply,op,ExtTreeMap.getElem?_modify,LawfulEqCmp.compare_eq_iff_eq]
  by_cases own : g = groupId
  · simp [own]
  · simp [own,Ne.symm own]

theorem groups_same (row_ : ∀ g,next.groups[g]? = (view.groups[g]?).map (change g)) :
    next.groups = view.groups ↔ ∀ (g : String) (row : GroupProjection),view.groups[g]? = some row → change g row = row := by
  constructor
  · intro same g row there
    have now := row_ g
    rw [same,there] at now
    exact (Option.some.inj now).symm
  · intro still
    apply ExtTreeMap.ext_getElem?
    intro g
    rw [row_ g]
    cases there : view.groups[g]? with
    | none => rfl
    | some row => rw [Option.map_some,still g row there]

theorem move_same (op : w.op = .moveMember deviceId source target) :
    (view.apply w).groups = view.groups ↔ Settled view deviceId source target w.tsNs := by
  rw [groups_same (move_row op)]
  unfold Settled
  split
  · rename_i one
    subst one
    constructor
    · intro still row there
      have same := still source row there
      rw [moved,if_pos rfl,if_pos rfl] at same
      exact drop_join_same.mp same
    · intro settled g row there
      unfold moved
      by_cases own : g = source
      · subst own
        rw [if_pos rfl,if_pos rfl]
        exact drop_join_same.mpr (settled row there)
      · rw [if_neg own,if_neg own]
  · rename_i two
    constructor
    · intro still
      refine ⟨fun row there => ?_,fun row there => ?_⟩
      · have same := still source row there
        rw [moved,if_pos rfl,if_neg two] at same
        exact drop_same.mp same
      · have same := still target row there
        rw [moved,if_neg (Ne.symm two),if_pos rfl] at same
        exact join_same.mp same
    · intro settled g row there
      unfold moved
      by_cases leaves : g = source
      · subst leaves
        rw [if_pos rfl,if_neg two]
        exact drop_same.mpr (settled.1 row there)
      · rw [if_neg leaves]
        by_cases joins : g = target
        · subst joins
          rw [if_pos rfl]
          exact join_same.mpr (settled.2 row there)
        · rw [if_neg joins]

theorem move_arrives (op : w.op = .moveMember deviceId source target) (there : view.groups[target]? ≠ none) :
    Member (view.apply w) deviceId target := by
  obtain ⟨row,there⟩ := Option.ne_none_iff_exists'.mp there
  refine ⟨moved deviceId source target w.tsNs target row,by rw [move_row op,there]; rfl,?_⟩
  rw [moved,if_pos rfl]
  exact joined _ deviceId w.tsNs

theorem move_leaves (op : w.op = .moveMember deviceId source target) (apart : source ≠ target) :
    ¬ Member (view.apply w) deviceId source := by
  rintro ⟨after,there,member⟩
  rw [move_row op,Option.map_eq_some_iff] at there
  obtain ⟨row,_,rfl⟩ := there
  rw [moved,if_pos rfl,if_neg apart] at member
  exact dropped row deviceId w.tsNs member

theorem move_others (op : w.op = .moveMember deviceId source target) (left : g ≠ source) (joined : g ≠ target) :
    (view.apply w).groups[g]? = view.groups[g]? := by
  rw [move_row op]
  have still : moved deviceId source target w.tsNs g = id := by
    funext row
    rw [moved,if_neg left,if_neg joined,id_def]
  rw [still,Option.map_id]
  rfl

theorem move_documented (op : w.op = .moveMember deviceId source target) :
    MoveRules view (view.apply w) deviceId source target ↔
      Known view deviceId source target ∨ Settled view deviceId source target w.tsNs := by
  constructor
  · intro rules
    by_cases known : Known view deviceId source target
    · exact .inl known
    · refine .inr ((move_same op).mp ?_)
      by_cases trusted : view.trust[deviceId]? = none
      · exact rules.unknownDevice trusted
      · refine rules.unknownGroup ?_
        by_contra both
        rw [not_or] at both
        exact known ⟨trusted,both.1,both.2⟩
  · intro either
    have same : ¬ Known view deviceId source target → (view.apply w).groups = view.groups := by
      intro unknown
      exact (move_same op).mpr (either.resolve_left unknown)
    refine ⟨fun device => same (fun known => known.1 device),?_,fun known => move_arrives op known.2.2,
      fun _ apart => move_leaves op apart,fun _ g left joined => by rw [move_others op left joined],?_⟩
    · rintro (source_ | target_)
      · exact same (fun known => known.2.1 source_)
      · exact same (fun known => known.2.2 target_)
    · intro somewhere
      by_cases there : view.groups[target]? = none
      · have still := same (fun known => known.2.2 there)
        simpa only [Member,still] using somewhere
      · exact ⟨target,move_arrives op there⟩

theorem add_documented (op : w.op = .addMemberToGroup groupId deviceId) :
    (view.trust[deviceId]? = none → (view.apply w).groups = view.groups) ↔ view.trust[deviceId]? ≠ none ∨
      ∀ row,view.groups[groupId]? = some row → deviceId ∈ row.members ∧ row.modifiedAtNs = w.tsNs := by
  have row_ : ∀ g,(view.apply w).groups[g]? = (view.groups[g]?).map fun row =>
      if g = groupId then row.join deviceId w.tsNs else row := by
    intro g
    rw [add_row op]
    by_cases own : g = groupId <;> simp [own]
  rw [groups_same row_,imp_iff_not_or]
  refine or_congr_right ⟨fun still row there => ?_,fun settled g row there => ?_⟩
  · have same := still groupId row there
    rw [if_pos rfl] at same
    exact join_same.mp same
  · by_cases own : g = groupId
    · subst own
      rw [if_pos rfl]
      exact join_same.mpr (settled row there)
    · rw [if_neg own]

theorem member_ops (crates : DomainCrates) (chain : List DomainWitness) (w : DomainWitness) :
    Documented (projectChain crates chain) w ↔ Named (projectChain crates chain) w := by
  unfold Documented Named
  cases op : w.op with
  | addMemberToGroup groupId deviceId => exact add_documented op
  | moveMember deviceId source target => exact move_documented op
  | _ => exact Iff.rfl

def enacts (op : DomainStateOp) : DomainWitness := ⟨⟨"w"⟩,"",1,"a",[],op,""⟩
def grouped : List DomainWitness := [enacts (.admitPeer "a" "a" "" []),enacts (.createGroup "g" "g" ["a"])]

-- A device nobody has admitted joins the group; a move to a group there is not loses the admitted one.
theorem member_lost : ¬ Documented (projectChain IdealCrates.domainLibrary grouped) (enacts (.addMemberToGroup "g" "b")) ∧
    ¬ Documented (projectChain IdealCrates.domainLibrary grouped) (enacts (.moveMember "a" "g" "h")) := by
  constructor
  · rw [member_ops]
    simp [Named,grouped,enacts,applied,emptyView,DomainStateView.apply]
  · intro documented
    have rules : MoveRules _ _ "a" "g" "h" := documented
    have before : (projectChain IdealCrates.domainLibrary grouped).groups["g"]? =
        some ⟨"g","g",["a"],1,1,none,DEFAULT_GROUP_LEADER_MS⟩ := by
      simp [grouped,enacts,applied,emptyView,DomainStateView.apply]
    have only : ∀ g,g ≠ "g" → (projectChain IdealCrates.domainLibrary grouped).groups[g]? = none := by
      intro g other
      simp [grouped,enacts,applied,emptyView,DomainStateView.apply,Ne.symm other]
    obtain ⟨groupId,row,there,member⟩ := rules.stays ⟨"g",_,before,List.mem_singleton_self _⟩
    rw [move_row rfl] at there
    by_cases own : groupId = "g"
    · subst own
      rw [before] at there
      cases there
      revert member
      decide
    · rw [only groupId own] at there
      cases there

end EvoCore.MemberOps
