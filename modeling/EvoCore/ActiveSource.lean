import EvoCore.SourceVerbs

namespace EvoCore.SourceVerbs
open Runs Tables

section
variable {wiring : Wiring} {s : Host} {rows : Custody} {task : Task} {env : Env} {log : List Event} {event : Event}
  {plugin handler shelf : String} {i : Nat}

def Event.claims : Event → Bool
  | .claimed _ _ => true
  | _ => false

def Event.stops (plugin : String) : Event → Bool
  | .routed handler _ request => handler = plugin && request.requestType = "stop"
  | _ => false

-- The last claim recorded is for the plugin, and since then no Stop has been routed to it.
def Unstopped (log : List Event) (plugin : String) : Prop :=
  ∃ earlier claimUri later,log = earlier++.claimed plugin claimUri::later ∧
    ∀ event ∈ later,event.claims = false ∧ event.stops plugin = false

def Kept (s : Host) : Prop := ∀ plugin,Unstopped s.log plugin → holder s.custody = some plugin

def standsAfter (standing : Option String) : Event → Option String
  | .claimed plugin _ => some plugin
  | .routed handler _ request => if request.requestType = "stop" ∧ standing = some handler then none else standing
  | _ => standing

def standing (log : List Event) : Option String := log.foldl standsAfter none

theorem standing_snoc : standing (log++[event]) = standsAfter (standing log) event := by
  simp [standing]

theorem standsAfter_exact : standsAfter before event = some plugin ↔
    (∃ claimUri,event = .claimed plugin claimUri) ∨ before = some plugin ∧ event.claims = false ∧ event.stops plugin = false := by
  cases event with
  | claimed other claimUri => simp [standsAfter,Event.claims]
  | routed handler shelf request =>
    simp only [standsAfter,Event.claims,Event.stops,reduceCtorEq,exists_false,false_or,true_and,
      Bool.and_eq_false_iff,decide_eq_false_iff_not]
    split
    · rename_i stopped
      obtain ⟨verb,same⟩ := stopped
      simp only [reduceCtorEq,verb,not_true_eq_false,or_false,false_iff,not_and,not_not]
      intro here
      exact Option.some.inj (same.symm.trans here)
    · rename_i other
      constructor
      · intro here
        refine ⟨here,?_⟩
        by_cases mine : handler = plugin
        · exact .inr fun verb => other ⟨verb,mine ▸ here⟩
        · exact .inl mine
      · exact And.left
  | tookCustody shelf domain => simp [standsAfter,Event.claims,Event.stops]
  | audioPlaybackEnded source claimUri => simp [standsAfter,Event.claims,Event.stops]
  | audited approver handler payload outcome => simp [standsAfter,Event.claims,Event.stops]

theorem unstopped_snoc : Unstopped (log++[event]) plugin ↔
    (∃ claimUri,event = .claimed plugin claimUri) ∨ Unstopped log plugin ∧ event.claims = false ∧ event.stops plugin = false := by
  constructor
  · rintro ⟨earlier,claimUri,later,shape,free⟩
    cases later using List.reverseRecOn with
    | nil =>
      have last := (List.append_inj' shape rfl).2
      exact .inl ⟨claimUri,List.singleton_inj.mp last⟩
    | append_singleton later last _ =>
      rw [← List.cons_append,← List.append_assoc] at shape
      obtain ⟨before,same⟩ := List.append_inj' shape rfl
      cases List.singleton_inj.mp same
      refine .inr ⟨⟨earlier,claimUri,later,before,?_⟩,free event (by simp)⟩
      intro other member
      exact free other (by simp [member])
  · rintro (⟨claimUri,rfl⟩ | ⟨⟨earlier,claimUri,later,rfl,free⟩,claims,stops⟩)
    · exact ⟨log,claimUri,[],rfl,fun _ none_ => nomatch none_⟩
    · refine ⟨earlier,claimUri,later++[event],by simp,?_⟩
      intro other member
      rcases List.mem_append.mp member with inside | last
      · exact free other inside
      · cases List.mem_singleton.mp last
        exact ⟨claims,stops⟩

theorem unstopped_exact : Unstopped log plugin ↔ standing log = some plugin := by
  induction log using List.reverseRecOn with
  | nil => simp [Unstopped,standing]
  | append_singleton log event ih => rw [unstopped_snoc,standing_snoc,standsAfter_exact,ih]

-- In flight, and about to free the handle on its own account though the claim of the plugin
-- comes after its lookup or its routing.
def Task.overtaken (plugin : String) (task : Task) : Bool :=
  match task.phase with
  | .routing handler | .bootstrapping handler _ => task.call.releasesCustody && handler ≠ plugin
  | .waiting _ => task.call.releasesCustody
  | .releasing _ => true
  | _ => false

def recordsClaim (s : Host) : Action → Option String
  | .dispatch _ _ => none
  | .advance i env =>
    match s.tasks[i]? with
    | none => none
    | some task =>
      match task.phase with
      | .claiming handler =>
        match task.claim s.custody env handler with
        | .ok _ => some handler
        | .error _ => none
      | _ => none

def Quiet (s : Host) (a : Action) : Prop := ∀ plugin,recordsClaim s a = some plugin → ∀ task ∈ s.tasks,task.overtaken plugin = false

structure Settled (s : Host) : Prop where
  held : ∀ plugin,standing s.log = some plugin → holder s.custody = some plugin
  tasks : ∀ plugin,standing s.log = some plugin → ∀ task ∈ s.tasks,task.overtaken plugin = false

theorem settled_kept (settled : Settled s) : Kept s := fun plugin unstopped => settled.held plugin (unstopped_exact.mp unstopped)

theorem start_settled : Settled (start rows) := by
  constructor
  · intro plugin standing_
    cases standing_
  · intro plugin standing_
    cases standing_

theorem stop_request (call : VerbCall) : call.request.requestType = "stop" ↔ call.releasesCustody = true := by
  cases call <;> simp [VerbCall.request,VerbCall.verb,SourceVerb.asStr,VerbCall.releasesCustody]

theorem claim_holder (claimed : task.claim rows env handler = .ok next) : holder next = some handler := by
  unfold Task.claim recordClaim at claimed
  split at claimed
  · cases claimed
  · split at claimed
    · cases claimed
    · split at claimed
      · cases claimed
      · split at claimed
        · cases claimed
        · cases claimed
          simp [holder,recordActiveSourceClaim]

theorem resolve_holder (stop : task.call.releasesCustody = true) (found : resolve rows task.call env = .ok handler) :
    holder rows = some handler := by
  have bare : task.call.primaryUri = none := by
    cases call : task.call <;> simp_all [VerbCall.releasesCustody,VerbCall.primaryUri]
  unfold resolve at found
  rw [bare] at found
  dsimp only at found
  split at found
  · cases found
  · rename_i row read
    split at found
    · rename_i there
      cases found
      unfold current at read
      split at read
      · cases read
      · split at read
        · cases read
        · cases read
          exact there
    · cases found

-- What an await of a dispatch can do: record a claim, route a request, free the handle after
-- its own Stop, or none of these.
inductive Turn (rows : Custody) (task : Task) (env : Env) : Custody × List Event × Phase → Prop where
  | claims (handler : String) (next : Custody) (at_ : task.phase = .claiming handler) (done : task.claim rows env handler = .ok next) :
      Turn rows task env (next,[.claimed handler (task.uri.getD "")],.routing handler)
  | routes (handler shelf : String) (at_ : task.phase = .routing handler ∨ task.phase = .bootstrapping handler shelf) :
      Turn rows task env (rows,[.routed handler shelf task.call.request],.waiting handler)
  | frees (handler : String) (freed : Custody) (events : List Event) (quiet : ∀ before,events.foldl standsAfter before = before)
      (at_ : task.phase = .releasing handler) : Turn rows task env (freed,events,.auditing handler (.ok ()))
  | looks (handler : String) (found : task.call.releasesCustody = true → holder rows = some handler) :
      Turn rows task env (rows,[],.routing handler)
  | moves (events : List Event) (phase : Phase) (quiet : ∀ before,events.foldl standsAfter before = before)
      (still : ∀ plugin,({ task with phase } : Task).overtaken plugin = true → task.overtaken plugin = true) :
      Turn rows task env (rows,events,phase)

theorem advanceTask_turn : Turn rows task env (advanceTask wiring rows task env) := by
  unfold advanceTask
  split
  · -- resolving
    split
    · exact .moves _ _ (fun _ => rfl) (fun _ none_ => nomatch none_)
    · rename_i handler found
      split
      · exact .moves _ _ (fun _ => rfl) (fun _ none_ => nomatch none_)
      · exact .looks handler fun stop => resolve_holder stop found
  · -- claiming
    rename_i handler at_
    split
    · exact .moves _ _ (fun _ => rfl) (fun _ none_ => nomatch none_)
    · rename_i next done
      exact .claims handler next at_ done
  · -- routing
    rename_i handler at_
    split
    · exact .moves _ _ (fun _ => rfl) (fun _ none_ => nomatch none_)
    · rename_i entry _
      split
      · refine .moves _ _ (fun _ => rfl) ?_
        intro plugin later
        simpa [Task.overtaken,at_] using later
      · exact .routes handler entry.shelf (.inl at_)
  · -- bootstrapping
    rename_i handler shelf at_
    exact .routes handler shelf (.inr at_)
  · -- waiting
    rename_i handler at_
    split
    · refine .moves _ _ (fun _ => rfl) ?_
      intro plugin later
      cases stop : task.call.releasesCustody with
      | true => simp [Task.overtaken,at_,stop]
      | false => simp [Task.overtaken,stop] at later
    · exact .moves _ _ (fun _ => rfl) (fun _ none_ => nomatch none_)
  · -- releasing
    rename_i handler at_
    refine .frees handler _ _ ?_ at_
    intro before
    split <;> rfl
  · -- auditing
    refine .moves _ _ ?_ (fun _ none_ => nomatch none_)
    intro before
    unfold Task.audit
    split <;> rfl
  · exact .moves _ _ (fun _ => rfl) (fun _ none_ => nomatch none_)

theorem modified_mem {tasks : List Task} {other : Task} {phase : Phase} (there : tasks[i]? = some task)
    (member : other ∈ tasks.modify i fun task => { task with phase }) : other ∈ tasks ∨ other = { task with phase } := by
  obtain ⟨k,found⟩ := List.mem_iff_getElem?.mp member
  obtain ⟨before,old,rfl⟩ := modify_cases found
  by_cases same : i = k
  · cases same
    cases Option.some.inj (there.symm.trans old)
    exact .inr (if_pos rfl)
  · rw [if_neg same]
    exact .inl (List.mem_of_getElem? old)

theorem standing_quiet {events : List Event} (quiet : ∀ before,events.foldl standsAfter before = before) :
    standing (log++events) = standing log := by
  simp [standing,quiet]

theorem turn_settled {events : List Event} {phase : Phase} (settled : Settled s) (there : s.tasks[i]? = some task)
    (kind : Turn s.custody task env (next,events,phase)) (quiet : Quiet s (.advance i env)) :
    Settled ⟨next,s.tasks.modify i fun task => { task with phase },s.log++events⟩ := by
  have here := List.mem_of_getElem? there
  generalize shape : (next,events,phase) = result at kind
  cases kind with
  | claims handler freed at_ done =>
    cases shape
    have recorded : recordsClaim s (.advance i env) = some handler := by simp [recordsClaim,there,at_,done]
    have newest : ∀ plugin,standing (s.log++[Event.claimed handler (task.uri.getD "")]) = some plugin → handler = plugin := by
      intro plugin standing_
      rw [standing_snoc] at standing_
      exact Option.some.inj standing_
    constructor
    · intro plugin standing_
      rw [← newest plugin standing_]
      exact claim_holder done
    · intro plugin standing_ other member
      rw [← newest plugin standing_]
      rcases modified_mem there member with old | rfl
      · exact quiet handler recorded other old
      · simp [Task.overtaken]
  | routes handler shelf at_ =>
    cases shape
    have before : ∀ plugin,standing (s.log++[Event.routed handler shelf task.call.request]) = some plugin →
        standing s.log = some plugin ∧ task.call.releasesCustody = false := by
      intro plugin standing_
      rw [standing_snoc,standsAfter_exact] at standing_
      rcases standing_ with ⟨_,none_⟩ | ⟨still,-,free⟩
      · cases none_
      · refine ⟨still,?_⟩
        have calm := settled.tasks plugin still task here
        cases stop : task.call.releasesCustody with
        | false => rfl
        | true =>
          -- A Stop on its way to another plugin is overtaken, and one on its way to this stops it.
          have aimed : handler = plugin := by
            rcases at_ with at_ | at_ <;> simpa [Task.overtaken,at_,stop] using calm
          simp [Event.stops,aimed,(stop_request task.call).mpr stop] at free
    refine ⟨fun plugin standing_ => settled.held plugin (before plugin standing_).1,?_⟩
    intro plugin standing_ other member
    obtain ⟨still,keeps⟩ := before plugin standing_
    rcases modified_mem there member with old | rfl
    · exact settled.tasks plugin still other old
    · exact keeps
  | frees handler freed events free at_ =>
    cases shape
    have none_ : ∀ plugin,standing (s.log++events) ≠ some plugin := by
      intro plugin standing_
      rw [standing_quiet free] at standing_
      have calm := settled.tasks plugin standing_ task here
      simp [Task.overtaken,at_] at calm
    exact ⟨fun plugin standing_ => absurd standing_ (none_ plugin),fun plugin standing_ => absurd standing_ (none_ plugin)⟩
  | looks handler found =>
    cases shape
    rw [List.append_nil]
    refine ⟨settled.held,?_⟩
    intro plugin standing_ other member
    rcases modified_mem there member with old | rfl
    · exact settled.tasks plugin standing_ other old
    · cases stop : task.call.releasesCustody with
      | false => simp [Task.overtaken,stop]
      | true =>
        have same := (found stop).symm.trans (settled.held plugin standing_)
        simp [Task.overtaken,Option.some.inj same]
  | moves events phase free still =>
    cases shape
    have same : standing (s.log++events) = standing s.log := standing_quiet free
    refine ⟨fun plugin standing_ => settled.held plugin (same ▸ standing_),?_⟩
    intro plugin standing_ other member
    change standing (s.log++events) = some plugin at standing_
    rw [same] at standing_
    rcases modified_mem there member with old | rfl
    · exact settled.tasks plugin standing_ other old
    · have calm := settled.tasks plugin standing_ task here
      cases later : ({ task with phase } : Task).overtaken plugin with
      | false => rfl
      | true => rw [still plugin later] at calm; cases calm

theorem open_calm (approver : VerbApprover) (call : VerbCall) (plugin : String) : (open_ approver call).overtaken plugin = false := by
  unfold open_
  split <;> rfl

theorem step_advance (there : s.tasks[i]? = some task) : step wiring s (.advance i env) =
    ⟨(advanceTask wiring s.custody task env).1,
      s.tasks.modify i fun task' => { task' with phase := (advanceTask wiring s.custody task env).2.2 },
      s.log++(advanceTask wiring s.custody task env).2.1⟩ := by
  change advance wiring s i env = _
  unfold advance
  rw [there]

theorem step_settled (s : Host) (a : Action) (settled : Settled s) (quiet : Quiet s a) : Settled (step wiring s a) := by
  cases a with
  | dispatch approver call =>
    refine ⟨settled.held,?_⟩
    intro plugin standing_ task member
    rcases List.mem_append.mp member with old | new
    · exact settled.tasks plugin standing_ task old
    · cases List.mem_singleton.mp new
      exact open_calm approver call plugin
  | advance i env =>
    cases there : s.tasks[i]? with
    | none =>
      have idle : step wiring s (.advance i env) = s := by simp [step,advance,there]
      rw [idle]
      exact settled
    | some task =>
      rw [step_advance there]
      exact turn_settled settled there advanceTask_turn quiet

-- A world in which every plugin is on a shelf, answers, and the store takes what it is given.
def obliging : Env := ⟨0,.ok none,none,some ⟨"shelf",none⟩,.ok (),false⟩

def Freed (wiring : Wiring) (s : Host) : Prop := ∃ more,¬Kept (run (step wiring) s more)

theorem freed_later (a : Action) (freed : Freed wiring (step wiring s a)) : Freed wiring s := by
  obtain ⟨more,torn⟩ := freed
  exact ⟨a::more,torn⟩

theorem torn_of (plugin : String) (standing_ : standing s.log = some plugin) (none_ : holder s.custody = none) : ¬Kept s := by
  intro kept
  have held := kept plugin (unstopped_exact.mpr standing_)
  rw [none_] at held
  cases held

theorem releasing_freed (handler plugin : String) (there : s.tasks[i]? = some task) (at_ : task.phase = .releasing handler)
    (standing_ : standing s.log = some plugin) : Freed wiring s := by
  refine ⟨[.advance i obliging],torn_of plugin ?_ ?_⟩
  · rw [run_cons,run_nil,step_advance there]
    simp only [advanceTask,at_]
    cases wiring.bus <;> simpa [standing,standsAfter] using standing_
  · rw [run_cons,run_nil,step_advance there]
    simp [advanceTask,at_,release,audioActiveSource,obliging,holder,releaseActiveSource]

theorem waiting_freed (handler plugin : String) (there : s.tasks[i]? = some task) (at_ : task.phase = .waiting handler)
    (stop : task.call.releasesCustody = true) (standing_ : standing s.log = some plugin) : Freed wiring s := by
  apply freed_later (.advance i obliging)
  rw [step_advance there]
  refine releasing_freed handler plugin (modify_same there) ?_ ?_
  · simp [advanceTask,at_,obliging,stop]
  · simpa [advanceTask,at_,obliging] using standing_

theorem sent_elsewhere (standing_ : standing log = some plugin) (other : handler ≠ plugin) (request : Request) :
    standing (log++[Event.routed handler shelf request]) = some plugin := by
  rw [standing_snoc,standsAfter_exact]
  exact .inr ⟨standing_,rfl,by simp [Event.stops,other]⟩

theorem overtaken_freed (there : s.tasks[i]? = some task) (overtaken : task.overtaken plugin = true)
    (standing_ : standing s.log = some plugin) : Freed wiring s := by
  unfold Task.overtaken at overtaken
  split at overtaken
  · rename_i handler at_
    rw [Bool.and_eq_true,decide_eq_true_iff] at overtaken
    apply freed_later (.advance i obliging)
    rw [step_advance there]
    have bare : bootstraps task.call ⟨"shelf",none⟩ = none := rfl
    refine waiting_freed handler plugin (modify_same there) ?_ overtaken.1 ?_
    · simp [advanceTask,at_,obliging,bare]
    · simp only [advanceTask,at_,obliging,bare]
      exact sent_elsewhere standing_ overtaken.2 _
  · rename_i handler shelf at_
    rw [Bool.and_eq_true,decide_eq_true_iff] at overtaken
    apply freed_later (.advance i obliging)
    rw [step_advance there]
    refine waiting_freed handler plugin (modify_same there) ?_ overtaken.1 ?_
    · simp [advanceTask,at_]
    · simp only [advanceTask,at_]
      exact sent_elsewhere standing_ overtaken.2 _
  · rename_i handler at_
    exact waiting_freed handler plugin there at_ overtaken standing_
  · rename_i handler at_
    exact releasing_freed handler plugin there at_ standing_
  · cases overtaken

theorem claim_freed (s : Host) (a : Action) (loud : ¬Quiet s a) : Freed wiring (step wiring s a) := by
  unfold Quiet at loud
  push Not at loud
  obtain ⟨plugin,recorded,other,member,overtaken⟩ := loud
  have overtaken := Bool.eq_true_of_not_eq_false overtaken
  cases a with
  | dispatch approver call => cases recorded
  | advance i env =>
    unfold recordsClaim at recorded
    dsimp only at recorded
    split at recorded
    · cases recorded
    · rename_i task there
      split at recorded
      · rename_i handler at_
        split at recorded
        · rename_i rows done
          cases recorded
          obtain ⟨j,beside⟩ := List.mem_iff_getElem?.mp member
          have apart : i ≠ j := by
            rintro rfl
            cases Option.some.inj (there.symm.trans beside)
            simp [Task.overtaken,at_] at overtaken
          rw [step_advance there]
          refine overtaken_freed (modify_other beside apart) overtaken ?_
          simp [advanceTask,at_,done,standing_snoc,standsAfter]
        · cases recorded
      · cases recorded

theorem claims_kept (wiring : Wiring) :
    (∀ rows actions,Guarded (step wiring) Quiet (start rows) actions → Throughout (step wiring) Kept (start rows) actions) ∧
    ∀ s a,¬Quiet s a → ∃ more,¬Kept (run (step wiring) s (a::more)) := by
  constructor
  · intro rows actions quiet
    have settled : Throughout (step wiring) Settled (start rows) actions := guarded_keeps step_settled start_settled quiet
    rw [throughout_prefixes] at settled ⊢
    exact fun k => settled_kept (settled k)
  · intro s a loud
    exact claim_freed s a loud

instance quietDecidable (s : Host) (a : Action) : Decidable (Quiet s a) :=
  match h : recordsClaim s a with
  | none => .isTrue fun _ recorded => nomatch h.symm.trans recorded
  | some plugin =>
    decidable_of_iff (∀ task ∈ s.tasks,task.overtaken plugin = false)
      ⟨fun calm _ recorded => Option.some.inj (h.symm.trans recorded) ▸ calm,fun quiet => quiet plugin h⟩

def Task.isFinished (task : Task) : Bool :=
  match task.phase with
  | .finished _ => true
  | _ => false

def playing (sourcePlugin : String) : Env := { obliging with registration := .ok (some sourcePlugin) }

def tidalTrack : ItemUri := ⟨"tidal:track:1",by decide,by decide⟩
def spotifyTrack : ItemUri := ⟨"spotify:track:1",by decide,by decide⟩

def playThrough (i : Nat) (uri : ItemUri) (sourcePlugin : String) : List Action :=
  .dispatch (.user 1000) (.playNow uri)::List.replicate 5 (.advance i (playing sourcePlugin))

-- The Stop has looked up tidal when spotify is played.
def crossed : List Action :=
  playThrough 0 tidalTrack "com.tidal" ++ ([.dispatch (.user 1000) .stop,.advance 1 obliging] : List Action) ++
    playThrough 2 spotifyTrack "com.spotify" ++ List.replicate 4 (Action.advance 1 obliging)

def inTurn : List Action :=
  playThrough 0 tidalTrack "com.tidal" ++ (Action.dispatch (.user 1000) .stop::List.replicate 5 (Action.advance 1 obliging)) ++
    playThrough 2 spotifyTrack "com.spotify"

theorem crossed_frees :
    (∀ task ∈ (run (step ⟨true,true⟩) (start ∅) crossed).tasks,task.isFinished = true) ∧
    Unstopped (run (step ⟨true,true⟩) (start ∅) crossed).log "com.spotify" ∧
    holder (run (step ⟨true,true⟩) (start ∅) crossed).custody = none ∧
    ¬Kept (run (step ⟨true,true⟩) (start ∅) crossed) := by
  have standing_ : standing (run (step ⟨true,true⟩) (start ∅) crossed).log = some "com.spotify" := by decide
  have none_ : holder (run (step ⟨true,true⟩) (start ∅) crossed).custody = none := by decide
  exact ⟨by decide,unstopped_exact.mpr standing_,none_,torn_of "com.spotify" standing_ none_⟩

theorem inTurn_kept :
    Throughout (step ⟨true,true⟩) Kept (start ∅) inTurn ∧
    ∃ more,¬Kept (run (step ⟨true,true⟩) (run (step ⟨true,true⟩) (start ∅) (crossed.take 10))
      (.advance 2 (playing "com.spotify")::more)) :=
  ⟨(claims_kept ⟨true,true⟩).1 ∅ inTurn (by decide),
    (claims_kept ⟨true,true⟩).2 _ (.advance 2 (playing "com.spotify")) (by decide)⟩

end

end EvoCore.SourceVerbs
