import EvoCore.SubjectAliases

namespace EvoCore.AliasQuery
open Tables Runs SubjectRegistry SubjectAliases

inductive SubjectQueryResult where
  | found (record : SubjectRecord)
  | aliased (chain : List AliasRecord) (terminal : Option SubjectRecord)
  | notFound

def maxAliasChainDepth : Nat := 16

-- The loop reads the registry twice in each turn; `between` are the calls that come in before a read. It gives
-- the answer with the registry that it was read from.
def follow (uuid : Nat → String) (between : Nat → List Call) : Nat → SubjectRegistry → String → List AliasRecord → SubjectQueryResult × SubjectRegistry
  | 0,r,_,chain => (.aliased chain none,r)
  | left+1,r,currentId,chain =>
    let seen := run (step uuid) r (between (2*left+1))
    match describe seen.inner currentId with
    | some record => (if chain = [] then .found record else .aliased chain (some record),seen)
    | none =>
      let later := run (step uuid) seen (between (2*left))
      match describeAlias later.inner currentId with
      | none => (if chain = [] then .notFound else .aliased chain none,later)
      | some record =>
        if record.kind = .split then (.aliased (chain++[record]) none,later)
        else
          match record.newIds with
          | [next] => follow uuid between left later next (chain++[record])
          | _ => (.aliased (chain++[record]) none,later)

def describeSubjectWithAliases (uuid : Nat → String) (between : Nat → List Call) (r : SubjectRegistry) (subjectId : String) :
    SubjectQueryResult × SubjectRegistry :=
  if subjectId = "" then (.notFound,r) else follow uuid between maxAliasChainDepth r subjectId []

def Known (s : RegistryInner) (id : String) : Prop := Live s id ∨ Retired s id

-- A chain of merges from one id to another.
def Merges (s : RegistryInner) : List AliasRecord → String → String → Prop
  | [],id,last => id = last
  | record::rest,id,last => describeAlias s id = some record ∧ record.kind ≠ .split ∧ ∃ next,record.newIds = [next] ∧ Merges s rest next last

-- The subject itself, the subject that it was merged into, or how far its merges could be followed: up to a record
-- that has no single successor, or as deep as the loop goes.
def Answers (s : RegistryInner) (id : String) : SubjectQueryResult → Prop
  | .found record => describe s id = some record
  | .aliased chain (some record) => chain ≠ [] ∧ ∃ last,Merges s chain id last ∧ describe s last = some record
  | .aliased chain none => (chain.length = maxAliasChainDepth ∧ ∃ last,Merges s chain id last) ∨
    ∃ before fork last,chain = before++[fork] ∧ Merges s before id last ∧ describeAlias s last = some fork ∧
      (fork.kind = .split ∨ ∀ next,fork.newIds ≠ [next])
  | .notFound => False

section Queries
variable {uuid : Nat → String} {between : Nat → List Call} {r : SubjectRegistry} {s t : RegistryInner} {chain : List AliasRecord} {id : String}

theorem merges_snoc (merges : Merges s chain id last) (aliased : describeAlias s last = some record) (whole : record.kind ≠ .split)
    (only : record.newIds = [next]) : Merges s (chain++[record]) id next := by
  induction chain generalizing id with
  | nil =>
    cases merges
    exact ⟨aliased,whole,next,only,rfl⟩
  | cons first rest ih =>
    obtain ⟨here,kind,middle,single,more⟩ := merges
    exact ⟨here,kind,middle,single,ih more⟩

theorem merges_later (kept : ∀ id record,describeAlias s id = some record → describeAlias t id = some record) (merges : Merges s chain id last) :
    Merges t chain id last := by
  induction chain generalizing id with
  | nil => exact merges
  | cons first rest ih =>
    obtain ⟨here,kind,middle,single,more⟩ := merges
    exact ⟨kept id first here,kind,middle,single,ih more⟩

theorem known_later (fresh : Function.Injective uuid) (held : Held uuid r) (known : Known r.inner id) (calls : List Call) :
    Known (run (step uuid) r calls).inner id := by
  have keeps (r : SubjectRegistry) (call : Call) (before : Held uuid r ∧ Known r.inner id) : Held uuid (step uuid r call) ∧
      Known (step uuid r call).inner id := by
    obtain ⟨next,gone,n,turn⟩ := step_held fresh before.1 call
    obtain ⟨k,below,rfl⟩ := before.1.2.known id before.2
    exact ⟨next,(next.2.minted k (by rw [turn.drawn]; omega)).imp And.left And.left⟩
  exact (run_keeps keeps ⟨held,known⟩).2

theorem successor_known (sound : Sound uuid s) (aliased : describeAlias s id = some record) (listed : next ∈ record.newIds) : Known s next :=
  chain_known sound (by simp [Retired,aliased]) (.single ⟨record,aliased,listed⟩)

theorem follow_answers (fresh : Function.Injective uuid) (left : Nat) (held : Held uuid r) (merges : Merges r.inner chain id currentId)
    (known : Known r.inner currentId) (depth : chain.length+left = maxAliasChainDepth) :
    Answers (follow uuid between left r currentId chain).2.inner id (follow uuid between left r currentId chain).1 := by
  induction left generalizing r currentId chain with
  | zero => exact .inl ⟨depth,currentId,merges⟩
  | succ left ih =>
    have seen := run_held fresh held (between (2*left+1))
    have read := merges_later (fun _ _ written => run_keeps_aliases fresh held (between (2*left+1)) written) merges
    have seenKnown := known_later fresh held known (between (2*left+1))
    unfold follow
    dsimp only
    cases live : describe (run (step uuid) r (between (2*left+1))).inner currentId with
    | some record =>
      dsimp only
      split
      · rename_i empty
        subst empty
        cases read
        exact live
      · rename_i some_
        exact ⟨some_,currentId,read,live⟩
    | none =>
      have later := run_held fresh seen (between (2*left))
      have readAgain := merges_later (fun _ _ written => run_keeps_aliases fresh seen (between (2*left)) written) read
      -- What is known and not live has been retired, and its record stays.
      have retired : Retired (run (step uuid) r (between (2*left+1))).inner currentId := by
        refine seenKnown.resolve_left fun alive => ?_
        rw [Live,live] at alive
        cases alive
      obtain ⟨record,written⟩ := Option.isSome_iff_exists.mp retired
      have aliased := run_keeps_aliases fresh seen (between (2*left)) written
      simp only [aliased]
      split
      · rename_i split_
        exact .inr ⟨chain,record,currentId,rfl,readAgain,aliased,.inl split_⟩
      · rename_i whole
        split
        · rename_i next only
          refine ih later (merges_snoc readAgain aliased whole only) (successor_known later.2 aliased (by rw [only]; exact List.mem_cons_self)) ?_
          rw [List.length_append,List.length_singleton]
          omega
        · rename_i forks
          exact .inr ⟨chain,record,currentId,rfl,readAgain,aliased,.inr forks⟩

-- A query about any id that was ever minted is answered, whatever calls come in between its reads: it never ends
-- at an id that the registry does not know.
theorem alias_query_answers (fresh : Function.Injective uuid) (calls : List Call) (between : Nat → List Call) (subjectId : String) (named : subjectId ≠ "")
    (known : Known (run (step uuid) .new calls).inner subjectId) :
    Answers (describeSubjectWithAliases uuid between (run (step uuid) .new calls) subjectId).2.inner subjectId
      (describeSubjectWithAliases uuid between (run (step uuid) .new calls) subjectId).1 := by
  rw [describeSubjectWithAliases,if_neg named]
  exact follow_answers fresh maxAliasChainDepth (run_held fresh ⟨rfl,new_sound⟩ calls) rfl known (Nat.zero_add _)

end Queries

-- Two tracks are merged just before the query reads the first of them.
def meanwhile (read : Nat) : List Call := if read = 31 then [.mergeAliases "u" "uu" "admin" none] else []

theorem merged_answers : Answers (describeSubjectWithAliases strokes meanwhile (run (step strokes) .new twoTracks) "u").2.inner "u"
    (describeSubjectWithAliases strokes meanwhile (run (step strokes) .new twoTracks) "u").1 :=
  alias_query_answers strokes_fresh twoTracks meanwhile "u" (by decide) (.inl (show (describe _ "u").isSome by decide))

end EvoCore.AliasQuery
