import EvoCore.WsSubscriptions

namespace EvoCore.WsSubscriptions
open Runs OperatorGates
open Tables (Table get)

def ReadLoop.isDown : ReadLoop → Bool
  | .down _ => true
  | _ => false

-- The id the loop is at work on, which the map does not hold meanwhile.
def ReadLoop.busyWith (loop : ReadLoop) (id : String) : Bool :=
  match loop with
  | .opening other | .acking other _ | .spawning other | .ending other => other = id
  | _ => false

structure Shape (w : Socket) : Prop where
  held : ∀ id i,w.holds id = some i → ∃ f,w.forwarders[i]? = some f ∧ f.subId = id ∧
    (w.loop.isDown ∨ f.aborted = false ∧ f.at_ ≠ .dropped)
  owned : ∀ i f,w.forwarders[i]? = some f → f.aborted = false → w.holds f.subId = some i
  busy : ∀ id,w.loop.busyWith id → w.holds id = none

def Lines (w : Socket) : Prop := ∀ id,∃ now,line w id = some now ∧ (w.pumping →
  (w.serves id → now = true) ∧ (now = true → w.serves id ∨ w.loop.isDown))

variable {surface : Surface} {principal : Principal} {w : Socket} {id other op : String} {i j : Nat} {f : Forwarder}
  {frame : OutgoingFrame} {at_ : ForwarderAt} {next : ReadLoop}

theorem busy_serves (busy : next.serves id = true) : next.busyWith id = true := by
  cases next <;> first | exact busy | cases busy

theorem holds_loop (going : w.loop.isDown = false) (on : next.isDown = false) : ({ w with loop := next } : Socket).holds id = w.holds id := by
  cases next with
  | down drained => cases on
  | _ => cases at_ : w.loop with
    | down drained => rw [at_] at going; cases going
    | _ => simp [Socket.holds,at_]

theorem shape_loop (shape : Shape w) (going : w.loop.isDown = false) (on : next.isDown = false)
    (busy : ∀ id,next.busyWith id → w.holds id = none) : Shape { w with loop := next } := by
  refine ⟨?_,?_,?_⟩
  · intro id i there
    rw [holds_loop going on] at there
    obtain ⟨f,found,own,alive⟩ := shape.held id i there
    exact ⟨f,found,own,alive.elim (fun gone => by rw [going] at gone; cases gone) .inr⟩
  · intro i f there alive
    rw [holds_loop going on]
    exact shape.owned i f there alive
  · intro id busy_
    rw [holds_loop going on]
    exact busy id busy_

theorem shape_send (shape : Shape w) : Shape (w.send frame) := ⟨shape.held,shape.owned,shape.busy⟩

theorem shape_move (shape : Shape w) (there : w.forwarders[i]? = some f) (drops : at_ = .dropped → f.aborted = true) :
    Shape (w.move i at_) := by
  refine ⟨?_,?_,shape.busy⟩
  · intro id j held
    obtain ⟨g,found,own,alive⟩ := shape.held id j held
    by_cases same : i = j
    · subst same
      cases Option.some.inj (there.symm.trans found)
      refine ⟨{ f with at_ },by simp [Socket.move,there],own,?_⟩
      rcases alive with gone | ⟨alive,_⟩
      · exact .inl gone
      · exact .inr ⟨alive,fun dropped => by rw [drops dropped] at alive; cases alive⟩
    · exact ⟨g,Tables.modify_other found same,own,alive⟩
  · intro j g found alive
    obtain ⟨before,old,rfl⟩ := Tables.modify_cases found
    have subId : (if i = j then { before with at_ } else before).subId = before.subId := by split <;> rfl
    have aborted : (if i = j then { before with at_ } else before).aborted = before.aborted := by split <;> rfl
    rw [subId]
    exact shape.owned j before old (aborted ▸ alive)

theorem shape_unsubscribe (shape : Shape w) (idle : w.loop = .idle) : Shape (handleUnsubscribeFrame w id) := by
  have holds : ∀ other,w.holds other = get w.activeSubs other := fun other => by simp [Socket.holds,idle]
  unfold handleUnsubscribeFrame
  cases entry : get w.activeSubs id with
  | none =>
    apply shape_loop shape (by rw [idle]; rfl) rfl
    intro other busy
    cases of_decide_eq_true busy
    rw [holds,entry]
  | some i =>
    obtain ⟨f,there,own,_⟩ := shape.held id i (by rw [holds,entry])
    refine ⟨?_,?_,?_⟩
    · intro other j held
      simp only [Socket.holds,Tables.get_erase] at held
      split at held
      · cases held
      · rename_i apart
        obtain ⟨g,found,own_,alive⟩ := shape.held other j (by rw [holds,held])
        have moved : i ≠ j := by
          rintro rfl
          cases Option.some.inj (there.symm.trans found)
          exact apart (own_.symm.trans own)
        refine ⟨g,Tables.modify_other found moved,own_,alive.elim (fun gone => ?_) .inr⟩
        rw [idle] at gone
        cases gone
    · intro j g found alive
      obtain ⟨before,old,rfl⟩ := Tables.modify_cases found
      by_cases same : i = j
      · rw [if_pos same] at alive
        cases alive
      · rw [if_neg same] at alive ⊢
        have held := shape.owned j before old alive
        simp only [Socket.holds,Tables.get_erase]
        rw [if_neg,← holds,held]
        intro own_
        rw [own_,holds,entry] at held
        exact same (Option.some.inj held)
    · intro other busy
      cases of_decide_eq_true busy
      simp [Socket.holds]

theorem shape_spawn (shape : Shape w) (at_ : w.loop = .spawning id) : Shape (proceed w) := by
  have holds : ∀ other,w.holds other = get w.activeSubs other := fun other => by simp [Socket.holds,at_]
  have none_ := shape.busy id (by simp [at_,ReadLoop.busyWith])
  simp only [proceed,at_]
  refine ⟨?_,?_,fun other busy => by cases busy⟩
  · intro other j held
    simp only [Socket.holds,Tables.get_insert] at held
    split at held
    · rename_i own
      cases Option.some.inj held
      exact ⟨⟨id,.next,false⟩,by simp,own.symm,.inr ⟨rfl,by rintro ⟨⟩⟩⟩
    · obtain ⟨g,found,own,alive⟩ := shape.held other j (by rw [holds,held])
      refine ⟨g,?_,own,alive.elim (fun gone => ?_) .inr⟩
      · rw [List.getElem?_append_left (List.getElem?_eq_some_iff.mp found).1]
        exact found
      · rw [at_] at gone
        cases gone
  · intro j g found alive
    simp only [Socket.holds,Tables.get_insert]
    rcases Tables.append_cases found with old | ⟨rfl,rfl⟩
    · have held := shape.owned j g old alive
      rw [if_neg,← holds,held]
      rintro own
      rw [own,none_] at held
      cases held
    · rw [if_pos rfl]

theorem abort_marks (forwarders : List Forwarder) (entries : List (Sigma fun _ : String => Nat)) (j : Nat) :
    ∃ mark : Forwarder → Bool,(entries.foldl (fun forwarders e => abort forwarders e.2) forwarders)[j]? =
      (forwarders[j]?).map (fun f => { f with aborted := f.aborted || mark f }) := by
  induction entries generalizing forwarders with
  | nil =>
    refine ⟨fun _ => false,?_⟩
    simp
  | cons e rest ih =>
    obtain ⟨mark,shape⟩ := ih (abort forwarders e.2)
    refine ⟨fun f => decide (e.2 = j) || mark (if e.2 = j then { f with aborted := true } else f),?_⟩
    rw [List.foldl_cons,shape,abort,List.getElem?_modify]
    cases forwarders[j]? with
    | none => rfl
    | some f => by_cases same : e.2 = j <;> simp [same]

theorem shape_close (shape : Shape w) (idle : w.loop = .idle) : Shape (step surface principal w .close) := by
  simp only [step,idle]
  have holds : ∀ other,w.holds other = get w.activeSubs other := fun other => by simp [Socket.holds,idle]
  refine ⟨?_,?_,fun other busy => by cases busy⟩
  · intro id j held
    obtain ⟨g,found,own,_⟩ := shape.held id j ((holds id).trans held)
    obtain ⟨mark,marked⟩ := abort_marks w.forwarders w.activeSubs.entries j
    exact ⟨{ g with aborted := g.aborted || mark g },by simp only [marked,found,Option.map_some],own,.inl rfl⟩
  · intro j g found alive
    obtain ⟨mark,marked⟩ := abort_marks w.forwarders w.activeSubs.entries j
    simp only [marked,Option.map_eq_some_iff] at found
    obtain ⟨before,old,rfl⟩ := found
    simp only [Bool.or_eq_false_iff] at alive
    exact (holds before.subId).symm.trans (shape.owned j before old alive.1)

theorem shape_subscribe (shape : Shape w) (idle : w.loop = .idle) : Shape (handleSubscribeFrame surface principal w id op) := by
  have going : w.loop.isDown = false := by rw [idle]; rfl
  unfold handleSubscribeFrame
  split
  · exact shape_loop shape going rfl fun _ busy => by cases busy
  · split
    · exact shape_loop shape going rfl fun _ busy => by cases busy
    · rename_i absent
      apply shape_loop shape going rfl
      intro other busy
      cases of_decide_eq_true busy
      simpa [Socket.holds,idle] using absent

theorem shape_proceed (shape : Shape w) : Shape (proceed w) := by
  cases at_ : w.loop with
  | idle => simpa [proceed,at_] using shape
  | opening id => simpa [proceed,at_] using shape
  | down drained => simpa [proceed,at_] using shape
  | spawning id => exact shape_spawn shape at_
  | acking id initial =>
    simp only [proceed,at_]
    split
    · apply shape_loop (shape_send shape) (by simp [Socket.send,at_,ReadLoop.isDown]) rfl
      intro other busy
      cases of_decide_eq_true busy
      exact shape.busy id (by simp [at_,ReadLoop.busyWith])
    · exact shape_loop shape (by rw [at_]; rfl) rfl fun _ busy => by cases busy
  | refusing id refusal =>
    simp only [proceed,at_]
    exact shape_loop (shape_send shape) (by simp [Socket.send,at_,ReadLoop.isDown]) rfl fun _ busy => by cases busy
  | ending id =>
    simp only [proceed,at_]
    exact shape_loop (shape_send shape) (by simp [Socket.send,at_,ReadLoop.isDown]) rfl fun _ busy => by cases busy

theorem shape_forward (shape : Shape w) (there : w.forwarders[i]? = some f) (source : Source) : Shape (forward w i f source) := by
  unfold forward
  split
  · split
    · rename_i aborted
      exact shape_move shape there fun _ => aborted
    · split <;> exact shape_move shape there (by rintro ⟨⟩)
  · split
    · exact shape_send (shape_move shape there (by rintro ⟨⟩))
    · exact shape_move shape there (by rintro ⟨⟩)
  · exact shape_send (shape_move shape there (by rintro ⟨⟩))
  · exact shape
  · exact shape

theorem step_shape (shape : Shape w) (a : Action) : Shape (step surface principal w a) := by
  cases a with
  | subscribe id op =>
    simp only [step]
    split
    · rename_i idle
      exact shape_subscribe shape idle
    · exact shape
  | unsubscribe id =>
    simp only [step]
    split
    · rename_i idle
      exact shape_unsubscribe shape idle
    · exact shape
  | opened outcome =>
    simp only [step]
    split
    · rename_i id initial at_
      apply shape_loop shape (by rw [at_]; rfl) rfl
      intro other busy
      cases of_decide_eq_true busy
      exact shape.busy id (by simp [at_,ReadLoop.busyWith])
    · rename_i id e at_
      exact shape_loop shape (by rw [at_]; rfl) rfl fun _ busy => by cases busy
    · exact shape
  | proceed => exact shape_proceed shape
  | forward i source =>
    simp only [step]
    split
    · rename_i f there
      exact shape_forward shape there source
    · exact shape
  | drop i =>
    simp only [step]
    split
    · rename_i f there
      split
      · rename_i dropped
        exact shape_move shape there fun _ => dropped.1
      · exact shape
    · exact shape
  | pumpExit => exact ⟨shape.held,shape.owned,shape.busy⟩
  | close =>
    cases idle : w.loop with
    | idle => exact shape_close shape idle
    | _ => simpa only [step,idle] using shape

theorem lines_quiet {after : Socket} (lines : Lines w) (sent : ∀ id,marks id after.sent = marks id w.sent) (pumping : after.pumping → w.pumping)
    (fewer : after.pumping → ∀ id,after.serves id → w.serves id)
    (kept : after.pumping → ∀ id,w.serves id ∨ w.loop.isDown → after.serves id ∨ after.loop.isDown) : Lines after := by
  intro id
  obtain ⟨now,shown,tells⟩ := lines id
  refine ⟨now,by rw [line,sent]; exact shown,fun pumps => ?_⟩
  obtain ⟨opens,served⟩ := tells (pumping pumps)
  exact ⟨fun serves => opens (fewer pumps id serves),fun open_ => kept pumps id (served open_)⟩

theorem lines_marked {after : Socket} (frame : OutgoingFrame) (id : String) (m : SessionWords.Mark) (later : Bool) (lines : Lines w) (pumps : w.pumping)
    (sent : after.sent = w.sent ++ [frame]) (own : mark id frame = some m) (others : ∀ other,other ≠ id → mark other frame = none)
    (goes : ∀ now,line w id = some now → SessionWords.follow now m = some later)
    (served : ∀ other,after.serves other = if other = id then later else w.serves other)
    (down : after.loop.isDown = w.loop.isDown) : Lines after := by
  intro other
  obtain ⟨now,shown,tells⟩ := lines other
  by_cases same : other = id
  · subst same
    refine ⟨later,?_,fun _ => ?_⟩
    · rw [line,sent,marks,List.filterMap_append]
      have one : [frame].filterMap (mark other) = [m] := by simp [own]
      rw [one,SessionWords.scan_snoc]
      exact Option.bind_eq_some_iff.mpr ⟨now,shown,goes now shown⟩
    · rw [served,if_pos rfl]
      exact ⟨id,.inl⟩
  · refine ⟨now,?_,fun _ => ?_⟩
    · rw [line,sent,marks,List.filterMap_append]
      have none_ : [frame].filterMap (mark other) = [] := by simp [others other same]
      rw [none_,List.append_nil]
      exact shown
    · rw [served,if_neg same,down]
      exact tells pumps

theorem line_serving (lines : Lines w) (pumps : w.pumping) (serves : w.serves id) : line w id = some true := by
  obtain ⟨now,shown,tells⟩ := lines id
  rw [shown,(tells pumps).1 serves]

theorem line_unserved (lines : Lines w) (pumps : w.pumping) (going : w.loop.isDown = false) (unserved : w.serves id = false) :
    line w id = some false := by
  obtain ⟨now,shown,tells⟩ := lines id
  cases now with
  | false => exact shown
  | true =>
    rcases (tells pumps).2 rfl with serves | gone
    · rw [unserved] at serves
      cases serves
    · rw [going] at gone
      cases gone

theorem serves_loop (going : w.loop.isDown = false) (on : next.isDown = false) (alike : next.serves id = w.loop.serves id) :
    ({ w with loop := next } : Socket).serves id = w.serves id := by
  simp only [Socket.serves,Socket.forwarderOf,holds_loop going on,alike]

theorem lines_loop (lines : Lines w) (going : w.loop.isDown = false) (on : next.isDown = false)
    (alike : ∀ id,next.serves id = w.loop.serves id) : Lines { w with loop := next } := by
  have same : ∀ id,({ w with loop := next } : Socket).serves id = w.serves id := fun id => serves_loop going on (alike id)
  refine lines_quiet lines (fun _ => rfl) (fun pumps => pumps) (fun _ id serves => same id ▸ serves) fun _ id served => ?_
  rw [same,on]
  rwa [going] at served

theorem forwarderOf_move (there : w.forwarders[i]? = some f) :
    (w.move i at_).forwarderOf id = if w.holds id = some i then some { f with at_ } else w.forwarderOf id := by
  have holds : (w.move i at_).holds id = w.holds id := rfl
  unfold Socket.forwarderOf
  rw [holds]
  cases w.holds id with
  | none => rfl
  | some j =>
    by_cases same : j = i
    · subst same
      simp [Socket.move,there]
    · simp [Socket.move,same,List.getElem?_modify,Ne.symm same]

theorem serves_alike (there : w.forwarders[i]? = some f) (alike : at_.isLive = f.at_.isLive) : (w.move i at_).serves id = w.serves id := by
  have loop : (w.move i at_).loop = w.loop := rfl
  rw [Socket.serves,Socket.serves,forwarderOf_move there,loop]
  split
  · rename_i held
    simp [Socket.forwarderOf,held,there,alike]
  · rfl

theorem lines_move (lines : Lines w) (there : w.forwarders[i]? = some f) (alike : at_.isLive = f.at_.isLive) : Lines (w.move i at_) := by
  have same : ∀ id,(w.move i at_).serves id = w.serves id := fun id => serves_alike there alike
  exact lines_quiet lines (fun _ => rfl) (fun pumps => pumps) (fun _ id serves => same id ▸ serves) fun _ id served => by rwa [same]

theorem lines_dropped (shape : Shape w) (lines : Lines w) (there : w.forwarders[i]? = some f) (aborted : f.aborted = true) :
    Lines (w.move i .dropped) := by
  have after : ∀ id,(w.move i .dropped).serves id = w.serves id ∨
      ((w.move i .dropped).serves id = w.loop.serves id ∧ w.loop.isDown = true) := by
    intro id
    have loop : (w.move i .dropped).loop = w.loop := rfl
    by_cases held : w.holds id = some i
    · obtain ⟨g,found,_,alive⟩ := shape.held id i held
      cases Option.some.inj (there.symm.trans found)
      right
      rw [Socket.serves,forwarderOf_move there,if_pos held,loop]
      refine ⟨rfl,alive.elim (fun gone => gone) fun alive => ?_⟩
      rw [alive.1] at aborted
      cases aborted
    · left
      rw [Socket.serves,Socket.serves,forwarderOf_move there,if_neg held,loop]
  refine lines_quiet lines (fun _ => rfl) (fun pumps => pumps) (fun _ id serves => ?_) fun _ id served => ?_
  · rcases after id with same | ⟨same,_⟩
    · rwa [← same]
    · rw [same] at serves
      simp [Socket.serves,serves]
  · rcases after id with same | ⟨_,gone⟩
    · rwa [same]
    · exact .inr gone

theorem lines_unsubscribe (shape : Shape w) (lines : Lines w) (idle : w.loop = .idle)
    (met : InOrder surface principal w (.unsubscribe id)) : Lines (handleUnsubscribeFrame w id) := by
  have holds : ∀ other,w.holds other = get w.activeSubs other := fun other => by simp [Socket.holds,idle]
  have same : w.pumping → ∀ other,(handleUnsubscribeFrame w id).serves other = w.serves other := by
    intro pumps other
    obtain ⟨f,found,on⟩ := met (by rw [idle]; rfl) pumps
    obtain ⟨i,held,there⟩ := Option.bind_eq_some_iff.mp found
    obtain ⟨g,there_,_,alive⟩ := shape.held id i held
    cases Option.some.inj (there.symm.trans there_)
    have live : f.at_.isLive = true := by
      rcases alive with gone | ⟨_,running⟩
      · rw [idle] at gone
        cases gone
      · cases where_ : f.at_ with
        | returned => exact absurd where_ on
        | dropped => exact absurd where_ running
        | _ => rfl
    rw [holds] at held
    simp only [handleUnsubscribeFrame,held]
    have found : w.forwarderOf id = some f := found
    by_cases own : other = id
    · subst own
      simp [Socket.serves,ReadLoop.serves,found,live]
    · have forwarder : ((get w.activeSubs other).bind fun j => (abort w.forwarders i)[j]?).any (·.at_.isLive) =
          ((get w.activeSubs other).bind fun j => w.forwarders[j]?).any (·.at_.isLive) := by
        cases get w.activeSubs other with
        | none => rfl
        | some j =>
          simp only [Option.bind_some,abort,List.getElem?_modify]
          cases w.forwarders[j]? with
          | none => rfl
          | some g => by_cases moved : i = j <;> simp [moved]
      simp [Socket.serves,ReadLoop.serves,Socket.forwarderOf,Socket.holds,own,Ne.symm own,idle,forwarder]
  have sent : (handleUnsubscribeFrame w id).sent = w.sent ∧ (handleUnsubscribeFrame w id).pumping = w.pumping := by
    unfold handleUnsubscribeFrame
    split <;> exact ⟨rfl,rfl⟩
  refine lines_quiet lines (fun _ => by rw [sent.1]) (fun pumps => sent.2 ▸ pumps) (fun pumps other serves => ?_) fun pumps other served => ?_
  · rwa [same (sent.2 ▸ pumps)] at serves
  · rw [same (sent.2 ▸ pumps)]
    rw [idle] at served
    exact .inl (served.resolve_right (by rintro ⟨⟩))

theorem lines_close (lines : Lines w) (idle : w.loop = .idle) : Lines (step surface principal w .close) := by
  have same : ∀ id,(step surface principal w .close).serves id = w.serves id := by
    intro id
    simp only [step,Socket.serves,Socket.forwarderOf,Socket.holds,idle,ReadLoop.serves]
    cases get w.activeSubs id with
    | none => rfl
    | some j =>
      obtain ⟨mark,marked⟩ := abort_marks w.forwarders w.activeSubs.entries j
      simp only [Option.bind_some,marked]
      cases w.forwarders[j]? <;> rfl
  have after : (step surface principal w .close).sent = w.sent ∧ (step surface principal w .close).pumping = w.pumping ∧
      (step surface principal w .close).loop.isDown = true := by
    simp [step,idle,ReadLoop.isDown]
  exact lines_quiet lines (fun _ => by rw [after.1]) (fun pumps => after.2.1 ▸ pumps) (fun _ id serves => same id ▸ serves)
    fun _ _ _ => .inr after.2.2

theorem lines_subscribe (lines : Lines w) (idle : w.loop = .idle) : Lines (handleSubscribeFrame surface principal w id op) := by
  have going : w.loop.isDown = false := by rw [idle]; rfl
  unfold handleSubscribeFrame
  split
  · exact lines_loop lines going rfl fun _ => by rw [idle]; rfl
  · split <;> exact lines_loop lines going rfl fun _ => by rw [idle]; rfl

theorem lines_spawn (shape : Shape w) (lines : Lines w) (at_ : w.loop = .spawning id) : Lines (proceed w) := by
  have holds : ∀ other,w.holds other = get w.activeSubs other := fun other => by simp [Socket.holds,at_]
  have same : ∀ other,(proceed w).serves other = w.serves other := by
    intro other
    simp only [proceed,at_]
    by_cases own : other = id
    · subst own
      simp [Socket.serves,ReadLoop.serves,at_,Socket.forwarderOf,Socket.holds,ForwarderAt.isLive]
    · have earlier : ((get w.activeSubs other).bind fun j => (w.forwarders ++ [⟨id,.next,false⟩])[j]?) =
          (get w.activeSubs other).bind fun j => w.forwarders[j]? := by
        cases held : get w.activeSubs other with
        | none => rfl
        | some j =>
          obtain ⟨g,found,_⟩ := shape.held other j (by rw [holds,held])
          exact List.getElem?_append_left (List.getElem?_eq_some_iff.mp found).1
      simp [Socket.serves,ReadLoop.serves,at_,Socket.forwarderOf,Socket.holds,own,Ne.symm own,earlier]
  have sent : (proceed w).sent = w.sent ∧ (proceed w).pumping = w.pumping := by simp [proceed,at_]
  refine lines_quiet lines (fun _ => by rw [sent.1]) (fun pumps => sent.2 ▸ pumps) (fun _ other serves => same other ▸ serves) fun _ other served => ?_
  rw [same]
  rw [at_] at served
  exact .inl (served.resolve_right (by rintro ⟨⟩))

theorem lines_proceed (shape : Shape w) (lines : Lines w) : Lines (proceed w) := by
  cases at_ : w.loop with
  | idle => simpa only [proceed,at_] using lines
  | opening id => simpa only [proceed,at_] using lines
  | down drained => simpa only [proceed,at_] using lines
  | spawning id => exact lines_spawn shape lines at_
  | acking id initial =>
    have going : w.loop.isDown = false := by rw [at_]; rfl
    have absent := shape.busy id (by simp [at_,ReadLoop.busyWith])
    simp only [proceed,at_]
    split
    · rename_i pumps
      apply lines_marked (.subscriptionAck id initial) id .opens true lines pumps
      · simp [Socket.send,pumps]
      · simp [mark]
      · intro other apart
        simp [mark,Ne.symm apart]
      · intro now shown
        have unserved : w.serves id = false := by simp [Socket.serves,Socket.forwarderOf,absent,at_,ReadLoop.serves]
        rw [line_unserved lines pumps going unserved] at shown
        cases Option.some.inj shown
        rfl
      · intro other
        have holds : ({ w.send (.subscriptionAck id initial) with loop := .spawning id } : Socket).holds other = w.holds other :=
          holds_loop (w := w.send (.subscriptionAck id initial)) going rfl
        have forwarder : ({ w.send (.subscriptionAck id initial) with loop := .spawning id } : Socket).forwarderOf other =
            w.forwarderOf other := by
          rw [Socket.forwarderOf,holds]
          rfl
        rw [Socket.serves,forwarder,Socket.serves]
        by_cases own : other = id
        · simp [ReadLoop.serves,own]
        · simp [ReadLoop.serves,own,Ne.symm own,at_]
      · rw [going]
        rfl
    · exact lines_loop lines going rfl fun _ => by rw [at_]; rfl
  | refusing id refusal =>
    have going : w.loop.isDown = false := by rw [at_]; rfl
    simp only [proceed,at_]
    have quiet : Lines (w.send (.subscriptionEnded id (.refusal refusal))) := by
      refine lines_quiet lines (fun other => ?_) (fun pumps => pumps) (fun _ _ serves => serves) fun _ _ served => served
      unfold Socket.send
      split
      · simp [marks,mark]
      · rfl
    exact lines_loop quiet going rfl fun _ => by simp [Socket.send,at_,ReadLoop.serves]
  | ending id =>
    have going : w.loop.isDown = false := by rw [at_]; rfl
    have absent := shape.busy id (by simp [at_,ReadLoop.busyWith])
    simp only [proceed,at_]
    by_cases pumps : w.pumping = true
    · apply lines_marked (.subscriptionEnded id .unsubscribed) id .closes false lines pumps
      · simp [Socket.send,pumps]
      · simp [mark]
      · intro other apart
        simp [mark,Ne.symm apart]
      · intro now shown
        have serving : w.serves id = true := by simp [Socket.serves,at_,ReadLoop.serves]
        rw [line_serving lines pumps serving] at shown
        cases Option.some.inj shown
        rfl
      · intro other
        have holds : ({ w.send (.subscriptionEnded id .unsubscribed) with loop := .idle } : Socket).holds other = w.holds other :=
          holds_loop (w := w.send (.subscriptionEnded id .unsubscribed)) going rfl
        have forwarder : ({ w.send (.subscriptionEnded id .unsubscribed) with loop := .idle } : Socket).forwarderOf other =
            w.forwarderOf other := by
          rw [Socket.forwarderOf,holds]
          rfl
        rw [Socket.serves,forwarder,Socket.serves]
        by_cases own : other = id
        · subst own
          simp [ReadLoop.serves,Socket.forwarderOf,absent]
        · simp [ReadLoop.serves,own,Ne.symm own,at_]
      · rw [going]
        rfl
    · refine lines_quiet lines (fun other => ?_) (fun pumps_ => absurd pumps_ pumps) (fun pumps_ => absurd pumps_ pumps)
        fun pumps_ => absurd pumps_ pumps
      simp [Socket.send,pumps]

theorem serves_held (there : w.forwarders[i]? = some f) (held : w.holds id = some i) (live : f.at_.isLive = true) :
    w.serves id = true := by
  simp [Socket.serves,Socket.forwarderOf,held,there,live]

theorem forward_event (shape : Shape w) (lines : Lines w) (there : w.forwarders[i]? = some f) (on : f.at_ = .event event)
    (pumps : w.pumping) (met : InOrder surface principal w (.forward i source)) :
    Lines ((w.move i .next).send (.subscriptionEvent f.subId event)) := by
  have live : f.at_.isLive = true := by rw [on]; rfl
  have serving : w.serves f.subId = true := by
    cases aborted : f.aborted with
    | true => exact (met pumps f there aborted).1 (by rw [on]; rfl)
    | false => exact serves_held there (shape.owned i f there aborted) live
  have same : ∀ id,(w.move i .next).serves id = w.serves id := fun id => serves_alike there (by rw [live]; rfl)
  apply lines_marked (.subscriptionEvent f.subId event) f.subId .item true lines pumps
  · have pumping : (w.move i .next).pumping = true := pumps
    rw [Socket.send,if_pos pumping]
    rfl
  · simp [mark]
  · intro other apart
    simp [mark,Ne.symm apart]
  · intro now shown
    rw [line_serving lines pumps serving] at shown
    cases Option.some.inj shown
    rfl
  · intro other
    have after : ((w.move i .next).send (.subscriptionEvent f.subId event)).serves other = (w.move i .next).serves other := rfl
    rw [after,same]
    split
    · rename_i own
      rw [own,serving]
    · rfl
  · rfl

theorem forward_closing (shape : Shape w) (lines : Lines w) (there : w.forwarders[i]? = some f) (on : f.at_ = .closing)
    (pumps : w.pumping) (met : InOrder surface principal w (.forward i source)) :
    Lines ((w.move i .returned).send (.subscriptionEnded f.subId .sourceClosed)) := by
  have held : w.holds f.subId = some i := by
    cases aborted : f.aborted with
    | true => exact (met pumps f there aborted).2 on
    | false => exact shape.owned i f there aborted
  have serving : w.serves f.subId = true := serves_held there held (by rw [on]; rfl)
  apply lines_marked (.subscriptionEnded f.subId .sourceClosed) f.subId .closes false lines pumps
  · have pumping : (w.move i .returned).pumping = true := pumps
    rw [Socket.send,if_pos pumping]
    rfl
  · simp [mark]
  · intro other apart
    simp [mark,Ne.symm apart]
  · intro now shown
    rw [line_serving lines pumps serving] at shown
    cases Option.some.inj shown
    rfl
  · intro other
    have after : ((w.move i .returned).send (.subscriptionEnded f.subId .sourceClosed)).serves other =
        (((w.move i .returned).forwarderOf other).any (·.at_.isLive) || w.loop.serves other) := rfl
    rw [after,forwarderOf_move there]
    by_cases own : other = f.subId
    · subst own
      have unserved : w.loop.serves f.subId = false := by
        by_contra busy
        have absent := shape.busy f.subId (busy_serves (by simpa using busy))
        rw [absent] at held
        cases held
      rw [if_pos held,if_pos rfl,unserved]
      rfl
    · have apart : w.holds other ≠ some i := by
        intro held_
        obtain ⟨g,found,own_,_⟩ := shape.held other i held_
        cases Option.some.inj (there.symm.trans found)
        exact own own_.symm
      rw [if_neg apart,if_neg own]
      rfl
  · rfl

theorem lines_silent (lines : Lines w) (silent : ¬ w.pumping = true) {after : Socket} (sent : after.sent = w.sent)
    (pumping : after.pumping = w.pumping) : Lines after := by
  have still : ¬ after.pumping = true := by rwa [pumping]
  exact lines_quiet lines (fun _ => by rw [sent]) (fun pumps => absurd pumps still) (fun pumps => absurd pumps still)
    fun pumps => absurd pumps still

theorem lines_forward (shape : Shape w) (lines : Lines w) (there : w.forwarders[i]? = some f)
    (met : InOrder surface principal w (.forward i source)) : Lines (forward w i f source) := by
  unfold forward
  split
  · rename_i on
    split
    · rename_i aborted
      exact lines_dropped shape lines there aborted
    · split <;> exact lines_move lines there (by rw [on]; rfl)
  · rename_i event on
    split
    · rename_i pumps
      exact forward_event shape lines there on pumps met
    · rename_i silent
      exact lines_silent lines silent rfl rfl
  · rename_i on
    by_cases pumps : w.pumping = true
    · exact forward_closing shape lines there on pumps met
    · refine lines_silent lines pumps ?_ rfl
      have still : ¬ (w.move i .returned).pumping = true := pumps
      rw [Socket.send,if_neg still]
      rfl
  · exact lines
  · exact lines

theorem step_lines (shape : Shape w) (lines : Lines w) (a : Action) (met : InOrder surface principal w a) :
    Lines (step surface principal w a) := by
  cases a with
  | subscribe id op =>
    simp only [step]
    split
    · rename_i idle
      exact lines_subscribe lines idle
    · exact lines
  | unsubscribe id =>
    simp only [step]
    split
    · rename_i idle
      exact lines_unsubscribe shape lines idle met
    · exact lines
  | opened outcome =>
    simp only [step]
    split
    · rename_i id initial at_
      exact lines_loop lines (by rw [at_]; rfl) rfl fun _ => by rw [at_]; rfl
    · rename_i id e at_
      exact lines_loop lines (by rw [at_]; rfl) rfl fun _ => by rw [at_]; rfl
    · exact lines
  | proceed => exact lines_proceed shape lines
  | forward i source =>
    simp only [step]
    split
    · rename_i f there
      exact lines_forward shape lines there met
    · exact lines
  | drop i =>
    simp only [step]
    split
    · rename_i f there
      split
      · rename_i dropped
        exact lines_dropped shape lines there dropped.1
      · exact lines
    · exact lines
  | pumpExit =>
    exact lines_quiet lines (fun _ => rfl) (fun pumps => by cases pumps) (fun pumps => by cases pumps) fun pumps => by cases pumps
  | close =>
    cases idle : w.loop with
    | idle => exact lines_close lines idle
    | _ => simpa only [step,idle] using lines

theorem inGrammar_iff : InGrammar w ↔ ∀ id,(line w id).isSome := forall_congr' fun _ => SessionWords.scan_prefix.symm

theorem lines_grammar (lines : Lines w) : InGrammar w := inGrammar_iff.mpr fun id => by
  obtain ⟨now,shown,_⟩ := lines id
  rw [shown]
  rfl

theorem fresh_shape : Shape .fresh := by
  refine ⟨?_,?_,?_⟩
  · intro id i held
    simp [Socket.holds,Socket.fresh] at held
  · intro i f there
    cases there
  · intro id busy
    cases busy

theorem fresh_lines : Lines .fresh := by
  intro id
  have unserved : Socket.fresh.serves id = false := by
    simp [Socket.serves,Socket.forwarderOf,Socket.holds,Socket.fresh,ReadLoop.serves]
  exact ⟨false,rfl,fun _ => ⟨fun serves => (by rw [unserved] at serves; cases serves),fun open_ => by cases open_⟩⟩

theorem step_pumping {a : Action} (frame_ : a ≠ .pumpExit) : (step surface principal w a).pumping = w.pumping := by
  cases a with
  | pumpExit => exact absurd rfl frame_
  | subscribe id op =>
    simp only [step,handleSubscribeFrame]
    repeat' split
    all_goals rfl
  | unsubscribe id =>
    simp only [step,handleUnsubscribeFrame]
    repeat' split
    all_goals rfl
  | opened outcome =>
    simp only [step]
    split <;> rfl
  | proceed =>
    simp only [step,proceed]
    repeat' split
    all_goals rfl
  | forward i source =>
    simp only [step,forward]
    repeat' split
    all_goals rfl
  | drop i =>
    simp only [step]
    repeat' split
    all_goals rfl
  | close =>
    simp only [step]
    split <;> rfl

theorem task_loop {a : Action} (task : a.isTask) : (step surface principal w a).loop = w.loop := by
  cases a with
  | forward i source =>
    simp only [step,forward]
    repeat' split
    all_goals rfl
  | drop i =>
    simp only [step]
    repeat' split
    all_goals rfl
  | _ => cases task

theorem tasks_loop (surface : Surface) (principal : Principal) (w : Socket) {actions : List Action} (tasks : ∀ a ∈ actions,a.isTask) :
    (run (step surface principal) w actions).loop = w.loop := by
  induction actions generalizing w with
  | nil => rfl
  | cons a rest ih =>
    have loop := ih (step surface principal w a) fun b member => tasks b (List.mem_cons_of_mem _ member)
    exact loop.trans (task_loop (tasks a List.mem_cons_self))

theorem run_pumping {actions : List Action} (stays : ∀ a ∈ actions,a ≠ .pumpExit) :
    (run (step surface principal) w actions).pumping = w.pumping := by
  induction actions generalizing w with
  | nil => rfl
  | cons a rest ih =>
    have pumping := ih (w := step surface principal w a) fun b member => stays b (List.mem_cons_of_mem _ member)
    exact pumping.trans (step_pumping (stays a List.mem_cons_self))

theorem subscribe_opens (shape : Shape w) (lines : Lines w) (idle : w.loop = .idle) (pumps : w.pumping) (ended : line w id = some false)
    (available : (handleSubscribe surface principal op).isOk) (met : InOrder surface principal w (.subscribe id op)) :
    (step surface principal w (.subscribe id op)).loop = .opening id := by
  have absent : get w.activeSubs id = none := by
    by_contra present
    obtain ⟨i,entry⟩ := Option.ne_none_iff_exists'.mp present
    have held : w.holds id = some i := by simpa [Socket.holds,idle] using entry
    obtain ⟨f,there,_,alive⟩ := shape.held id i held
    have running := met (by rw [idle]; rfl) pumps available f (by simp [Socket.forwarderOf,held,there])
    have live : f.at_.isLive = true := by
      rcases alive with gone | ⟨_,kept⟩
      · rw [idle] at gone
        cases gone
      · cases where_ : f.at_ with
        | returned => exact absurd where_ running
        | dropped => exact absurd where_ kept
        | _ => rfl
    rw [line_serving lines pumps (serves_held there held live)] at ended
    cases ended
  simp only [step,idle,handleSubscribeFrame]
  cases gate : handleSubscribe surface principal op with
  | error refusal =>
    rw [gate] at available
    cases available
  | ok opId =>
    dsimp only
    rw [absent]

theorem opens_acks (initial : Option Value) {first second : List Action} (opens : (step surface principal w (.subscribe id op)).loop = .opening id)
    (tasks : ∀ a ∈ first ++ second,a.isTask) :
    (run (step surface principal) w (.subscribe id op::first ++ .opened (.ok initial)::second)).loop = .acking id initial := by
  rw [run_append,run_cons,run_cons]
  have opening := tasks_loop surface principal (step surface principal w (.subscribe id op))
    fun a (member : a ∈ first) => tasks a (List.mem_append_left _ member)
  rw [opens] at opening
  generalize run (step surface principal) (step surface principal w (.subscribe id op)) first = waiting at opening ⊢
  have acking : (step surface principal waiting (.opened (.ok initial))).loop = .acking id initial := by simp only [step,opening]
  exact (tasks_loop _ _ _ fun a member => tasks a (List.mem_append_right _ member)).trans acking

theorem kept_throughout (met : Guarded (step surface principal) (InOrder surface principal) .fresh actions) :
    Throughout (step surface principal) (fun w => Shape w ∧ Lines w) .fresh actions :=
  guarded_keeps (fun _ a both met => ⟨step_shape both.1 a,step_lines both.1 both.2 a met⟩) ⟨fresh_shape,fresh_lines⟩ met

theorem subscriptions_kept (surface : Surface) (principal : Principal) (actions : List Action)
    (met : Guarded (step surface principal) (InOrder surface principal) .fresh actions) :
    Throughout (step surface principal) InGrammar .fresh actions ∧ Acknowledged surface principal actions := by
  refine ⟨throughout_prefixes.mpr fun k => lines_grammar (throughout_prefixes.mp (kept_throughout met) k).2,?_⟩
  intro before id op first initial second after shape idle available ended tasks reached pumps
  rw [shape,List.append_assoc,guarded_append] at met
  obtain ⟨shaped,lined⟩ := throughout_final (kept_throughout met.1)
  have idle : (run (step surface principal) .fresh before).loop = .idle := by
    cases at_ : (run (step surface principal) .fresh before).loop with
    | idle => rfl
    | _ => rw [at_] at idle; cases idle
  have reached_ : reached = run (step surface principal) (run (step surface principal) .fresh before)
      (.subscribe id op::first ++ .opened (.ok initial)::second) := run_append
  -- The pump still runs, so it did when the frame was read.
  have pumping : (run (step surface principal) .fresh before).pumping = true := by
    rw [reached_,run_pumping] at pumps
    · exact pumps
    · intro a member exits
      subst exits
      simp only [List.cons_append,List.mem_cons,List.mem_append,reduceCtorEq,false_or] at member
      have task := tasks .pumpExit (List.mem_append.mpr member)
      cases task
  have acking := opens_acks initial (subscribe_opens shaped lined idle pumping ended available met.2.1) tasks
  rw [← reached_] at acking
  simp [step,proceed,acking,pumps,Socket.send]

def happenings : WireOp := ⟨⟨"subscribe_happenings",by decide⟩,.none⟩
def streaming : Surface := ⟨⟨[happenings],by decide⟩,⟨⟨[]⟩,⟨[]⟩⟩,.secure,⟨[]⟩,none⟩
def client : Principal := ⟨"id",⟨[]⟩⟩
def opens : List Action := [.subscribe "a" "subscribe_happenings",.opened (.ok none),.proceed,.proceed]

theorem reopened : Throughout (step streaming client) InGrammar .fresh
      (opens ++ ([.forward 0 (.item "1"),.forward 0 .closed,.unsubscribe "a",.drop 0,.proceed] : List Action) ++
        opens ++ ([.forward 1 (.item "2"),.forward 1 .closed] : List Action)) ∧
    marks "a" (run (step streaming client) .fresh
      (opens ++ ([.forward 0 (.item "1"),.forward 0 .closed,.unsubscribe "a",.drop 0,.proceed] : List Action) ++ opens ++
        ([.forward 1 (.item "2"),.forward 1 .closed] : List Action))).sent = [.opens,.item,.closes,.opens,.item] :=
  ⟨(subscriptions_kept streaming client (opens ++ ([.forward 0 (.item "1"),.forward 0 .closed,.unsubscribe "a",.drop 0,.proceed] : List Action) ++
    opens ++ ([.forward 1 (.item "2"),.forward 1 .closed] : List Action)) (by decide)).1,by decide⟩

theorem outside (id : String) {actions : List Action} (stuck : line (run (step surface principal) .fresh actions) id = none) :
    ¬ Throughout (step surface principal) InGrammar .fresh actions := by
  intro held
  have going := inGrammar_iff.mp (throughout_final held) id
  rw [stuck] at going
  cases going

-- A stream that has ended by itself keeps its id: an Unsubscribe is answered by a second Ended, a new
-- Subscribe by a refusal. An Unsubscribe without a subscription is answered by an Ended, and one that
-- comes while the forwarder is at the send of an event by an Ended before the event.
theorem ended_lingers :
    ¬ Throughout (step streaming client) InGrammar .fresh (opens ++ ([.forward 0 .closed,.forward 0 .closed,.unsubscribe "a",.proceed] : List Action)) ∧
    ¬ Acknowledged streaming client (opens ++ ([.forward 0 .closed,.forward 0 .closed] : List Action) ++ opens) ∧
    ¬ Throughout (step streaming client) InGrammar .fresh [.unsubscribe "a",.proceed] ∧
    ¬ Throughout (step streaming client) InGrammar .fresh (opens ++ ([.forward 0 (.item "1"),.unsubscribe "a",.proceed,.forward 0 .closed] : List Action)) := by
  refine ⟨outside "a" (by decide),fun acknowledged => ?_,outside "a" (by decide),
    outside "a" (by decide)⟩
  have acked := acknowledged (opens ++ ([.forward 0 .closed,.forward 0 .closed] : List Action)) "a" "subscribe_happenings" [] none [] [.proceed] rfl
    (by decide) (by decide) (by decide) (by simp) (by decide)
  revert acked
  decide

end EvoCore.WsSubscriptions
