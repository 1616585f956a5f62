import EvoCore.DomainProjection
import EvoCore.IdealCrates
import EvoCore.Runs

namespace EvoCore.GroupConsistency
open DomainEntries DomainProjection Runs Std

variable {view next : DomainStateView} {row : GroupProjection} {group : Option GroupProjection}
  {leader other : Option LeaderProjection} {g : String}

def leaderOf (leader : Option LeaderProjection) : Option String := leader.bind LeaderProjection.explicitLeader
def successorOf (group : Option GroupProjection) : Option String := group.bind GroupProjection.pendingSuccessor

-- What the group row and the leader row under one id owe each other.
def ConsistentAt : Option GroupProjection → Option LeaderProjection → Prop
  | none,leader => leader = none
  | some row,leader => row.members.Nodup ∧ (∀ d ∈ leaderOf leader,d ∈ row.members) ∧
      ∀ d ∈ row.pendingSuccessor,d ∈ row.members

def Consistent (view : DomainStateView) : Prop := ∀ g : String,ConsistentAt view.groups[g]? view.leaders[g]?

-- The four ops that take members away, bring them or open a leader row, and what
-- keeps each of them harmless.
def Careful (view : DomainStateView) : DomainStateOp → Prop
  | .createGroup groupId _ initialMembers =>
    initialMembers.Nodup ∧ ∀ d ∈ leaderOf view.leaders[groupId]?,d ∈ initialMembers
  | .removeMemberFromGroup groupId deviceId => successorOf view.groups[groupId]? ≠ some deviceId
  | .moveMember deviceId fromGroupId toGroupId => fromGroupId ≠ toGroupId →
    leaderOf view.leaders[fromGroupId]? ≠ some deviceId ∧ successorOf view.groups[fromGroupId]? ≠ some deviceId
  | .pinSourceHost groupId _ => (view.groups[groupId]?).isSome = true
  | _ => True

theorem consistentAt_leader (same : leaderOf other = leaderOf leader) (present : group.isSome = true) :
    ConsistentAt group other ↔ ConsistentAt group leader := by
  cases group with
  | none => cases present
  | some row => simp [ConsistentAt,same]

theorem consistentAt_map (keeps : ∀ row,ConsistentAt (some row) leader → ConsistentAt (some (change row)) leader)
    (consistent : ConsistentAt group leader) : ConsistentAt (group.map change) leader := by
  cases group with
  | none => exact consistent
  | some row => exact keeps row consistent

theorem join_keeps (consistent : ConsistentAt (some row) leader) : ConsistentAt (some (row.join device now)) leader := by
  obtain ⟨nodup,led,pending⟩ := consistent
  unfold ConsistentAt GroupProjection.join
  dsimp only
  split
  · exact ⟨nodup,led,pending⟩
  · rename_i absent
    have outside : device ∉ row.members := by simpa using absent
    refine ⟨?_,fun d member => List.mem_append_left _ (led d member),
      fun d member => List.mem_append_left _ (pending d member)⟩
    simp [List.nodup_append,nodup]
    intro m member same
    exact outside (same ▸ member)

theorem drop_exact (consistent : ConsistentAt (some row) leader) :
    ConsistentAt (some (row.drop device now)) leader ↔
      leaderOf leader ≠ some device ∧ row.pendingSuccessor ≠ some device := by
  obtain ⟨nodup,led,pending⟩ := consistent
  unfold ConsistentAt GroupProjection.drop
  constructor
  · intro after
    refine ⟨fun leads => ?_,fun succeeds => ?_⟩
    · have member := after.2.1 device leads
      simp at member
    · have member := after.2.2 device succeeds
      simp at member
  · intro apart
    refine ⟨nodup.filter _,fun d leads => ?_,fun d succeeds => ?_⟩
    · simp only [List.mem_filter,decide_eq_true_eq]
      exact ⟨led d leads,fun same => apart.1 (same ▸ leads)⟩
    · simp only [List.mem_filter,decide_eq_true_eq]
      exact ⟨pending d succeeds,fun same => apart.2 (same ▸ succeeds)⟩

theorem consistent_exact (consistent : Consistent view)
    (others : ∀ h,h ≠ g → next.groups[h]? = view.groups[h]? ∧ next.leaders[h]? = view.leaders[h]?) :
    Consistent next ↔ ConsistentAt next.groups[g]? next.leaders[g]? := by
  constructor
  · intro all
    exact all g
  · intro here h
    by_cases same : h = g
    · rw [same]; exact here
    · rw [(others h same).1,(others h same).2]
      exact consistent h

theorem modified_exact (consistent : Consistent view) (groups : next.groups = view.groups.modify g change)
    (leaders : next.leaders = view.leaders) :
    Consistent next ↔ ConsistentAt ((view.groups[g]?).map change) view.leaders[g]? := by
  rw [consistent_exact (g := g) consistent]
  · simp [groups,leaders]
  · intro h apart
    simp [groups,leaders,ExtTreeMap.getElem?_modify,apart.symm]

theorem modified_keeps (consistent : Consistent view) (groups : next.groups = view.groups.modify g change)
    (leaders : next.leaders = view.leaders)
    (keeps : ∀ row,ConsistentAt (some row) view.leaders[g]? → ConsistentAt (some (change row)) view.leaders[g]?) :
    Consistent next :=
  (modified_exact consistent groups leaders).mpr (consistentAt_map keeps (consistent g))

theorem create_exact (consistent : Consistent view) (groups : next.groups = view.groups.insert g row)
    (leaders : next.leaders = view.leaders.alter g (orDefault id)) (unpending : row.pendingSuccessor = none) :
    Consistent next ↔ row.members.Nodup ∧ ∀ d ∈ leaderOf view.leaders[g]?,d ∈ row.members := by
  rw [consistent_exact (g := g) consistent]
  · have same : leaderOf (orDefault id view.leaders[g]?) = leaderOf view.leaders[g]? := by
      cases view.leaders[g]? <;> rfl
    simp [groups,leaders,ConsistentAt,same,unpending]
  · intro h apart
    simp [groups,leaders,ExtTreeMap.getElem?_insert,ExtTreeMap.getElem?_alter,apart.symm]

theorem delete_keeps (consistent : Consistent view) (groups : next.groups = view.groups.erase g)
    (leaders : next.leaders = view.leaders.erase g) : Consistent next := by
  rw [consistent_exact (g := g) consistent]
  · simp [groups,leaders,ConsistentAt]
  · intro h apart
    simp [groups,leaders,ExtTreeMap.getElem?_erase,apart.symm]

theorem pin_exact (consistent : Consistent view) (groups : next.groups = view.groups.modify g change)
    (leaders : next.leaders = view.leaders.alter g (orDefault lead))
    (touched : ∀ row,(change row).members = row.members ∧ (change row).pendingSuccessor = row.pendingSuccessor)
    (led : ∀ row,(lead row).explicitLeader = row.explicitLeader) :
    Consistent next ↔ (view.groups[g]?).isSome = true := by
  rw [consistent_exact (g := g) consistent]
  · have at_ := consistent g
    have same : leaderOf (orDefault lead view.leaders[g]?) = leaderOf view.leaders[g]? := by
      cases view.leaders[g]? <;> simp [orDefault,leaderOf,led,noLeader]
    cases present : view.groups[g]? with
    | none => simp [groups,leaders,present,ConsistentAt,orDefault]
    | some row =>
      rw [present] at at_
      simp only [groups,leaders,ExtTreeMap.getElem?_alter,ExtTreeMap.getElem?_modify,present]
      simp only [Std.compare_self,if_true,Option.map_some,ConsistentAt,same,(touched row).1,(touched row).2]
      exact iff_of_true at_ rfl
  · intro h apart
    simp [groups,leaders,ExtTreeMap.getElem?_modify,ExtTreeMap.getElem?_alter,apart.symm]

theorem remove_exact (consistent : Consistent view) :
    Consistent (removeMemberFromGroup view g device now) ↔ successorOf view.groups[g]? ≠ some device := by
  have at_ := consistent g
  unfold removeMemberFromGroup
  dsimp only
  cases present : view.groups[g]? with
  | none => exact iff_of_true consistent (by simp [successorOf])
  | some row =>
    rw [present] at at_
    obtain ⟨nodup,led,pending⟩ := at_
    dsimp only
    split
    · rename_i leads
      refine (consistent_exact (g := g) consistent ?_).trans ?_
      · intro h elsewhere
        simp [ExtTreeMap.getElem?_insert,ExtTreeMap.getElem?_modify,elsewhere.symm]
      · cases standing : view.leaders[g]? with
        | none => simp [standing] at leads
        | some lead =>
          simp only [ExtTreeMap.getElem?_insert_self,ExtTreeMap.getElem?_modify_self,standing]
          constructor
          · intro after succeeds
            have member := after.2.1 device succeeds
            simp [GroupProjection.drop] at member
          · intro other
            refine ⟨nodup.filter _,fun d taken => ?_,fun d absent => by cases absent⟩
            simp only [GroupProjection.drop,List.mem_filter,decide_eq_true_eq]
            exact ⟨pending d taken,fun same => other (same ▸ taken)⟩
    · rename_i follows
      refine (consistent_exact (g := g) consistent ?_).trans ?_
      · intro h elsewhere
        simp [ExtTreeMap.getElem?_insert,elsewhere.symm]
      · simp only [ExtTreeMap.getElem?_insert_self]
        rw [drop_exact ⟨nodup,led,pending⟩]
        exact ⟨fun both => both.2,fun other => ⟨follows,other⟩⟩

theorem rejoin_keeps (consistent : ConsistentAt (some row) leader) :
    ConsistentAt (some ((row.drop device now).join device now)) leader := by
  obtain ⟨nodup,led,pending⟩ := consistent
  have absent : (row.members.filter (· ≠ device)).any (· == device) = false := by simp
  have kept : ∀ d,d ∈ row.members → d ∈ row.members.filter (· ≠ device)++[device] := by
    intro d member
    by_cases same : d = device
    · simp [same]
    · simp [member,same]
  simp only [ConsistentAt,GroupProjection.join,GroupProjection.drop,absent,Bool.false_eq_true,if_false]
  refine ⟨?_,fun d leads => kept d (led d leads),fun d succeeds => kept d (pending d succeeds)⟩
  rw [List.nodup_append]
  refine ⟨nodup.filter _,by simp,?_⟩
  intro d member e last
  rw [List.mem_singleton] at last
  simp only [List.mem_filter,decide_eq_true_eq] at member
  rw [last]
  exact member.2

theorem move_exact (consistent : Consistent view)
    (groups : next.groups = (view.groups.modify source fun row => row.drop device now).modify target fun row => row.join device now)
    (leaders : next.leaders = view.leaders) :
    Consistent next ↔ (source ≠ target → leaderOf view.leaders[source]? ≠ some device ∧
      successorOf view.groups[source]? ≠ some device) := by
  by_cases same : source = target
  · subst same
    refine iff_of_true ?_ fun apart => absurd rfl apart
    have combined : next.groups = view.groups.modify source fun row => (row.drop device now).join device now := by
      rw [groups]
      apply ExtTreeMap.ext_getElem?
      intro h
      by_cases here : source = h
      · simp [here,Function.comp_def]
      · simp [ExtTreeMap.getElem?_modify,here]
    exact modified_keeps consistent combined leaders fun row consistent => rejoin_keeps consistent
  · have left : Consistent {view with groups := view.groups.modify source fun row => row.drop device now} ↔
        leaderOf view.leaders[source]? ≠ some device ∧ successorOf view.groups[source]? ≠ some device := by
      refine Iff.trans (modified_exact consistent rfl rfl) ?_
      have at_ := consistent source
      cases present : view.groups[source]? with
      | none =>
        rw [present] at at_
        have unled : view.leaders[source]? = none := at_
        simp [ConsistentAt,unled,leaderOf,successorOf]
      | some row =>
        rw [present] at at_
        exact drop_exact at_
    have joined : Consistent next ↔
        Consistent {view with groups := view.groups.modify source fun row => row.drop device now} := by
      constructor
      · intro after h
        by_cases here : h = target
        · have at_ := consistent h
          simpa [ExtTreeMap.getElem?_modify,show ¬ source = h from here ▸ same] using at_
        · have at_ := after h
          rw [groups,leaders] at at_
          simpa [ExtTreeMap.getElem?_modify,show ¬ target = h from fun e => here e.symm] using at_
      · intro before
        exact modified_keeps before groups leaders fun row consistent => join_keeps consistent
    rw [joined,left]
    exact ⟨fun apart _ => apart,fun apart => apart same⟩

theorem lead_keeps (consistent : Consistent view) : Consistent (setGroupLeader view g device now) := by
  unfold setGroupLeader
  split
  · exact consistent
  · rename_i row present
    split
    · rename_i member
      refine (consistent_exact (g := g) consistent ?_).mpr ?_
      · intro h elsewhere
        simp [ExtTreeMap.getElem?_modify,ExtTreeMap.getElem?_alter,elsewhere.symm]
      · have at_ := consistent g
        rw [present] at at_
        obtain ⟨nodup,_,pending⟩ := at_
        simp only [ExtTreeMap.getElem?_modify_self,ExtTreeMap.getElem?_alter_self,present]
        refine ⟨nodup,fun d leads => ?_,pending⟩
        cases Option.some.inj leads
        simpa using member
    · exact consistent

-- Every op keeps the rows consistent exactly when it is careful.
theorem apply_consistent (view : DomainStateView) (w : DomainWitness) (consistent : Consistent view) :
    Consistent (view.apply w) ↔ Careful view w.op := by
  have before : Consistent {view with endpoints := view.endpoints.apply w} := consistent
  unfold DomainStateView.apply
  cases op : w.op with
  | admitPeer | discardPeer | renamePeerDisplayName | updatePeerEndpoints | declareNetworkRelay =>
    exact iff_of_true consistent trivial
  | createGroup groupId displayName initialMembers => exact Iff.trans (create_exact before rfl rfl (by rfl)) Iff.rfl
  | deleteGroup groupId => exact iff_of_true (delete_keeps before rfl rfl) trivial
  | renameGroup groupId newDisplayName =>
    exact iff_of_true (modified_keeps before rfl rfl fun row consistent => consistent) trivial
  | setGroupLeaderMs groupId leaderMs =>
    exact iff_of_true (modified_keeps before rfl rfl fun row consistent => consistent) trivial
  | addMemberToGroup groupId deviceId =>
    exact iff_of_true (modified_keeps before rfl rfl fun row consistent => join_keeps consistent) trivial
  | removeMemberFromGroup groupId deviceId => exact remove_exact before
  | moveMember deviceId fromGroupId toGroupId => exact move_exact before rfl rfl
  | setGroupLeader groupId leaderDeviceId => exact iff_of_true (lead_keeps before) trivial
  | selectSuccessorOnLeaderRemoval groupId successorDeviceId =>
    refine iff_of_true (modified_keeps before rfl rfl fun row consistent => ?_) trivial
    split
    · rename_i member
      refine ⟨consistent.1,consistent.2.1,fun d succeeds => ?_⟩
      cases Option.some.inj succeeds
      simpa using member
    · exact consistent
  | cancelSuccessorSelection groupId =>
    refine iff_of_true (modified_keeps before rfl rfl fun row consistent => ?_) trivial
    exact ⟨consistent.1,consistent.2.1,fun d absent => by cases absent⟩
  | pinSourceHost groupId sourceHostDeviceId =>
    exact pin_exact before rfl rfl (fun row => ⟨rfl,rfl⟩) fun row => rfl
  | unpinSourceHost groupId =>
    refine iff_of_true ((consistent_exact (g := groupId) before ?_).mpr ?_) trivial
    · intro h elsewhere
      simp [ExtTreeMap.getElem?_modify,elsewhere.symm]
    · have at_ := consistent groupId
      have same : leaderOf ((view.leaders[groupId]?).map fun row => {row with pinnedSourceHost := none}) =
          leaderOf view.leaders[groupId]? := by cases view.leaders[groupId]? <;> rfl
      simp only [ExtTreeMap.getElem?_modify_self]
      cases present : view.groups[groupId]? with
      | none =>
        rw [present] at at_
        have unled : view.leaders[groupId]? = none := at_
        simp [ConsistentAt,unled]
      | some row =>
        rw [present] at at_
        exact (consistentAt_leader same rfl).mpr at_

theorem empty_consistent : Consistent emptyView := by
  intro g
  simp [emptyView,ConsistentAt]

theorem projected_consistent : Consistent (projectChain crates chain) ↔ Consistent (applied chain) := by
  simp [Consistent]

theorem projected_careful (op : DomainStateOp) : Careful (projectChain crates chain) op ↔ Careful (applied chain) op := by
  cases op <;> simp [Careful]

-- Over any chain: every prefix projects to consistent rows exactly when every op is
-- careful where it stands.
theorem consistent_exactly (crates : DomainCrates) (chain : List DomainWitness) :
    (∀ k,Consistent (projectChain crates (chain.take k))) ↔
      ∀ k w,chain[k]? = some w → Careful (projectChain crates (chain.take k)) w.op := by
  simp only [projected_consistent,projected_careful]
  have exactly : Throughout DomainStateView.apply Consistent emptyView chain ↔ _ :=
    throughout_exact apply_consistent empty_consistent
  rw [throughout_prefixes,guarded_positions] at exactly
  exact exactly

-- The leader moves to another group: gone from the members, still the leader.
def entry (op : DomainStateOp) : DomainWitness := ⟨⟨"w"⟩,"",0,"a",[],op,""⟩

theorem moved_leader_remains : ¬ ∀ crates chain,Consistent (projectChain crates chain) := by
  intro always
  have broken := always IdealCrates.domainLibrary
    [entry (.createGroup "g" "g" ["a","b"]),entry (.setGroupLeader "g" "a"),entry (.moveMember "a" "g" "h")]
  rw [projected_consistent] at broken
  have led := (broken "g")
  simp [applied,emptyView,DomainStateView.apply,entry,setGroupLeader,ConsistentAt,leaderOf,orDefault,GroupProjection.drop,
    ExtTreeMap.getElem?_modify] at led

end EvoCore.GroupConsistency
