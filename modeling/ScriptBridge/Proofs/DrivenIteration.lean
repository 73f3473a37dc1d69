import ScriptBridge.Proofs.HostCalls
import ScriptBridge.Proofs.IteratedSequences
import ScriptBridge.Session

/-!
Script iterators driven by the host. Each time the host wants an item the script is asked once,
until it replies with anything else than an item. That reply ends the iteration for good: the script
is not asked again, and not told when the host stops. To stop earlier is to call `return` once, if
the iterator has it.
-/

namespace ScriptBridge.Bridge.Iterator

/-! ### Replies of the script -/

/-- What a script replies when it is asked for the next item. -/
inductive Reply where
  | item (v : Value)
  | done
  | failed (e : Error)

namespace Reply

/-- What the host gets. -/
def item? : Reply → Option (Except Error Value)
  | item v => some (.ok v)
  | done => none
  | failed e => some (.error e)

def isLast : Reply → Bool
  | item _ => false
  | done | failed _ => true

def outcome : Reply → Outcome Error (Option Value)
  | item v => .value (some v)
  | done => .value none
  | failed e => .failure e

end Reply

/-- Calls the `next` of an iterator. -/
def callNext (r : Reentry) (source : Script.OpenIterator) : HostAct ScriptValue :=
  intoHost r (Script.callValue r source.next source.iterator [])

/-- Reads a property of a result, as a value of the host. -/
def readResult (r : Reentry) (result : ScriptValue) (name : String) : HostAct Value := do
  toHost r (← intoHost r (Script.getValue r result (.ofString name)))

/-- The script is asked once: its `next` throws, or returns no object, or one whose `done` cannot be
read, or is true, or whose `value` cannot be read, or else is the item. -/
inductive Replies (r : Reentry) (source : Script.OpenIterator) (w : World) : Reply → World → Prop
  where
  | thrown {e : Error} {w' : World} (call : callNext r source w = (.failure e, w')) :
    Replies r source w (.failed e) w'
  | malformed {result : ScriptValue} {found : String} {w' : World}
    (call : callNext r source w = (.value result, w')) (noObject : Script.isObject result = false)
    (named : (engineTypeName result : HostAct String) w' = (.value found, w')) :
    Replies r source w (.failed (.engine (.wrongType found "object"))) w'
  | doneFails {result : ScriptValue} {e : Error} {w₁ w' : World}
    (call : callNext r source w = (.value result, w₁)) (object : Script.isObject result = true)
    (done : readResult r result "done" w₁ = (.failure e, w')) : Replies r source w (.failed e) w'
  | done {result : ScriptValue} {flag : Value} {w₁ w' : World}
    (call : callNext r source w = (.value result, w₁)) (object : Script.isObject result = true)
    (done : readResult r result "done" w₁ = (.value flag, w')) (truthy : flag.truthy = true) :
    Replies r source w .done w'
  | valueFails {result : ScriptValue} {flag : Value} {e : Error} {w₁ w₂ w' : World}
    (call : callNext r source w = (.value result, w₁)) (object : Script.isObject result = true)
    (done : readResult r result "done" w₁ = (.value flag, w₂)) (falsy : flag.truthy = false)
    (value : readResult r result "value" w₂ = (.failure e, w')) : Replies r source w (.failed e) w'
  | item {result : ScriptValue} {flag v : Value} {w₁ w₂ w' : World}
    (call : callNext r source w = (.value result, w₁)) (object : Script.isObject result = true)
    (done : readResult r result "done" w₁ = (.value flag, w₂)) (falsy : flag.truthy = false)
    (value : readResult r result "value" w₂ = (.value v, w')) : Replies r source w (.item v) w'

section

variable {r : Reentry} {source : Script.OpenIterator} {w w' : World} {reply : Reply}

theorem ask_eq (r : Reentry) (source : Script.OpenIterator) :
    ask r source = (do
      let result ← callNext r source
      if Script.isObject result then
        if (← readResult r result "done").truthy then return none
        else return some (← readResult r result "value")
      else wrongType result "object") := by
  simp only [ask, callNext, readResult, bind_assoc]

theorem Replies.ask_eq (replies : Replies r source w reply w') :
    ask r source w = (reply.outcome, w') := by
  rw [Iterator.ask_eq]
  cases replies with
  | thrown call => exact Act.bind_of_failure call _
  | malformed call noObject named =>
    rw [Act.bind_of_value call, if_neg (ne_true_of_eq_false noObject)]
    exact Act.bind_of_value named _
  | doneFails call object done =>
    rw [Act.bind_of_value call, if_pos object]
    exact Act.bind_of_failure done _
  | done call object done truthy =>
    rw [Act.bind_of_value call, if_pos object, Act.bind_of_value done, if_pos truthy]
    rfl
  | valueFails call object done falsy value =>
    rw [Act.bind_of_value call, if_pos object, Act.bind_of_value done,
      if_neg (ne_true_of_eq_false falsy)]
    exact Act.bind_of_failure value _
  | item call object done falsy value =>
    rw [Act.bind_of_value call, if_pos object, Act.bind_of_value done,
      if_neg (ne_true_of_eq_false falsy)]
    exact Act.bind_of_value value _

theorem engineTypeName_eq (v : ScriptValue) (w : World) :
    ∃ name, (engineTypeName v : HostAct String) w = (.value name, w) := by
  cases v <;> exact ⟨_, rfl⟩

/-- A script that comes back has replied. -/
theorem exists_reply (r : Reentry) (source : Script.OpenIterator) (w : World) :
    (∃ reply w', Replies r source w reply w') ∨ ∃ w', ask r source w = (.exhausted, w') := by
  rw [ask_eq]
  rcases call : callNext r source w with ⟨result | e | _, w₁⟩
  · rw [Act.bind_of_value call]
    cases object : Script.isObject result with
    | false =>
      obtain ⟨found, named⟩ := engineTypeName_eq result w₁
      exact .inl ⟨_, _, .malformed call object named⟩
    | true =>
      rw [if_pos rfl]
      rcases done : readResult r result "done" w₁ with ⟨flag | e | _, w₂⟩
      · rw [Act.bind_of_value done]
        cases falsy : flag.truthy with
        | true => exact .inl ⟨_, _, .done call object done falsy⟩
        | false =>
          rcases value : readResult r result "value" w₂ with ⟨v | e | _, w₃⟩
          · exact .inl ⟨_, _, .item call object done falsy value⟩
          · exact .inl ⟨_, _, .valueFails call object done falsy value⟩
          · exact .inr ⟨w₃, Act.bind_of_exhausted value _⟩
      · exact .inl ⟨_, _, .doneFails call object done⟩
      · exact .inr ⟨w₂, Act.bind_of_exhausted done _⟩
  · exact .inl ⟨_, _, .thrown call⟩
  · exact .inr ⟨w₁, Act.bind_of_exhausted call _⟩

/-! ### One request -/

theorem advance_of_ended {it : Iterator} (ended : it.ended = true) :
    it.advance r w = (.value (none, it), w) := by
  rw [advance, if_pos ended]
  rfl

/-- A script that is asked is asked once, and its reply decides whether it is asked again. -/
theorem advance_of_reply (replies : Replies r source w reply w') :
    advance r { source } w = (.value (reply.item?, { source, ended := reply.isLast }), w') := by
  have asked := replies.ask_eq
  rw [advance, if_neg Bool.false_ne_true]
  cases reply with
  | item v => exact Act.bind_of_value (Act.attempt_of_value asked) _
  | done => exact Act.bind_of_value (Act.attempt_of_value asked) _
  | failed e => exact Act.bind_of_value (Act.attempt_of_failure asked) _

theorem reply_of_advance {item : Option (Except Error Value)} {it : Iterator}
    (advances : advance r { source } w = (.value (item, it), w')) :
    ∃ reply, Replies r source w reply w' ∧ item = reply.item? ∧
      it = { source, ended := reply.isLast } := by
  obtain ⟨reply, w₁, replies⟩ | ⟨w₁, asked⟩ := exists_reply r source w
  · cases (advance_of_reply replies).symm.trans advances
    exact ⟨reply, replies, rfl, rfl⟩
  · have exhausts : advance r { source } w = (.exhausted, w₁) := by
      rw [advance, if_neg Bool.false_ne_true]
      exact Act.bind_of_exhausted (Act.attempt_of_exhausted asked) _
    cases exhausts.symm.trans advances

end

/-! ### Runs of requests -/

/-- One request of the host, and what it gets. -/
structure Turn where
  before : World
  item : Option (Except Error Value)
  after : World

/-- Each turn is taken in the world that the one before left. -/
def Turn.Linked : World → List Turn → World → Prop
  | w, [], w' => w' = w
  | w, turn :: rest, w' => turn.before = w ∧ Linked turn.after rest w'

/-- The host takes turns with an iterator. What else happens between them is left open. -/
inductive Drives (r : Reentry) : Iterator → List Turn → Iterator → Prop where
  | nil (it : Iterator) : Drives r it [] it
  | next {it it₁ it' : Iterator} {turn : Turn} {rest : List Turn}
    (advances : it.advance r turn.before = (.value (turn.item, it₁), turn.after))
    (more : Drives r it₁ rest it') : Drives r it (turn :: rest) it'

/-- The script is asked in the first turns: it replies with items, and maybe then with what ends the
iteration. In the other turns, which there are only then, nothing happens. -/
structure Course (r : Reentry) (source : Script.OpenIterator) (asked idle : List Turn)
    (values : List Value) (ending : Option Reply) : Prop where
  replies : List.Forall₂
    (fun turn reply => Replies r source turn.before reply turn.after ∧ turn.item = reply.item?)
    asked (values.map .item ++ ending.toList)
  last : ∀ reply ∈ ending, reply.isLast = true
  still : ∀ turn ∈ idle, turn.item = none ∧ turn.after = turn.before
  goesOn : ending = none → idle = []

section

variable {r : Reentry} {source : Script.OpenIterator} {it it' : Iterator} {turns : List Turn}
  {asked idle : List Turn} {values : List Value} {ending : Option Reply}

theorem Drives.of_ended (drives : Drives r it turns it') (ended : it.ended = true) :
    it' = it ∧ ∀ turn ∈ turns, turn.item = none ∧ turn.after = turn.before := by
  induction drives with
  | nil => exact ⟨rfl, List.forall_mem_nil _⟩
  | @next it it₁ it' turn rest advances more ih =>
    have advances := (advance_of_ended ended).symm.trans advances
    simp only [Prod.mk.injEq, Outcome.value.injEq] at advances
    obtain ⟨⟨nothing, rfl⟩, still⟩ := advances
    obtain ⟨same, others⟩ := ih ended
    exact ⟨same, List.forall_mem_cons.2 ⟨⟨nothing.symm, still.symm⟩, others⟩⟩

/-- Whatever the script does, the course of its iteration is settled. -/
theorem Drives.course (drives : Drives r { source } turns it) :
    ∃ asked idle values ending, turns = asked ++ idle ∧
      Course r source asked idle values ending ∧ it = { source, ended := ending.isSome } := by
  induction turns with
  | nil =>
    cases drives
    refine ⟨[], [], [], none, rfl, ⟨.nil, fun reply mem => ?_, List.forall_mem_nil _, ?_⟩, rfl⟩
    · exact absurd mem (Option.not_mem_none reply)
    · exact fun _ => rfl
  | cons turn rest ih =>
    cases drives with
    | next advances more =>
      obtain ⟨reply, replies, given, rfl⟩ := reply_of_advance advances
      cases last : reply.isLast with
      | true =>
        obtain ⟨rfl, idle⟩ := more.of_ended last
        refine ⟨[turn], rest, [], some reply, rfl, ⟨.cons ⟨replies, given⟩ .nil, ?_, idle, nofun⟩,
          by rw [last]; rfl⟩
        intro other mem
        cases mem
        exact last
      | false =>
        rw [last] at more
        obtain ⟨asked, idle, values, ending, rfl, course, rfl⟩ := ih more
        cases reply with
        | item v =>
          exact ⟨turn :: asked, idle, v :: values, ending, rfl,
            { course with replies := .cons ⟨replies, given⟩ course.replies }, rfl⟩
        | done | failed => cases last

theorem Course.items (course : Course r source asked idle values ending) :
    (asked ++ idle).filterMap Turn.item =
      values.map .ok ++ (ending.bind Reply.item?).toList := by
  have nothing : idle.filterMap Turn.item = [] :=
    List.filterMap_eq_nil_iff.2 fun turn mem => (course.still turn mem).1
  have given : asked.filterMap Turn.item =
      (values.map Reply.item ++ ending.toList).filterMap Reply.item? := by
    have each := course.replies
    clear course
    generalize values.map Reply.item ++ ending.toList = replies at each
    induction each with
    | nil => rfl
    | cons first _ ih => rw [List.filterMap_cons, List.filterMap_cons, first.2, ih]
  rw [List.filterMap_append, nothing, List.append_nil, given, List.filterMap_append,
    List.filterMap_map]
  congr 1
  · exact congrFun List.filterMap_eq_map values
  · cases ending with
    | none => rfl
    | some reply =>
      cases reply <;> rfl

/-- The items that are taken in one go are those of linked turns. -/
theorem drives_of_take {limit : Nat} {w w' : World} {items : List (Except Error Value)}
    (takes : take r limit it w = (.value (items, it'), w')) :
    ∃ turns, Turn.Linked w turns w' ∧ Drives r it turns it' ∧
      items = turns.filterMap Turn.item := by
  induction limit generalizing it w items with
  | zero =>
    cases takes
    exact ⟨[], rfl, .nil _, rfl⟩
  | succ limit ih =>
    obtain ⟨⟨item, it₁⟩, w₁, advances, rest⟩ := Act.of_bind_value takes
    cases item with
    | none =>
      cases rest
      exact ⟨[⟨w, none, w'⟩], ⟨rfl, rfl⟩, .next advances (.nil it'), rfl⟩
    | some item =>
      obtain ⟨⟨items, it₂⟩, w₂, takes, gives⟩ := Act.of_bind_value rest
      cases gives
      obtain ⟨turns, linked, drives, rfl⟩ := ih takes
      exact ⟨⟨w, some item, w₁⟩ :: turns, ⟨rfl, linked⟩, .next advances drives, rfl⟩

/-- To run a host that takes items, it is enough to look at the items and at the mark. -/
theorem exists_take {limit : Nat} {w : World} {items : List (Except Error Value)} {ended : Bool}
    (takes : ((do
      let taken ← take r limit it
      return (taken.1, taken.2.ended) : HostAct _) w).1 = .value (items, ended)) :
    ∃ it' w', take r limit it w = (.value (items, it'), w') ∧ it'.ended = ended := by
  obtain ⟨⟨items', it'⟩, w', takes, gives⟩ := Act.of_bind_value (Prod.ext takes rfl)
  cases gives
  exact ⟨it', _, takes, rfl⟩

end

/-! ### Stopping early -/

/-- Reads what an iterator has as `return`. -/
def readReturn (r : Reentry) (source : Script.OpenIterator) : HostAct ScriptValue :=
  intoHost r (Script.getValue r source.iterator (.ofString "return"))

theorem readReturn_of_finds {r : Reentry} {source : Script.OpenIterator} {w : World}
    {id : ObjectId} {v : ScriptValue} (object : source.iterator = .object id)
    (finds : Finds w (.ofString "return") (some id) v) :
    readReturn r source w = (.value v, w) := by
  rw [readReturn, object]
  exact Act.recover_of_value finds.get_eq _

/-- To stop an iteration that goes on fails where `return` cannot be read, does nothing more where
it is no function, and otherwise is one call of that function on the iterator. The function is
called through its `call`, which has to be that of all functions. -/
structure Closing (r r' : Reentry) (source : Script.OpenIterator) (w : World) : Prop where
  failed : ∀ e w₁, readReturn r source w = (.failure e, w₁) →
    close r { source } w = (.failure e, w₁)
  unwanted : ∀ v w₁, readReturn r source w = (.value v, w₁) →
    Script.callable? v w₁ = (.value none, w₁) → close r { source } w = (.value (), w₁)
  called : ∀ v m w₁, readReturn r source w = (.value v, w₁) →
    Script.callable? v w₁ = (.value (some m), w₁) → BorrowsCall w₁ m →
      close r { source } w =
        intoHost r (do let _ ← r'.call m source.iterator []; return ()) w₁

section

variable {α β : Type} {r r' : Reentry} {w w₁ : World} {x : ScriptAct α}

theorem intoHost_bind_of_value {a : α} (value : intoHost r x w = (.value a, w₁))
    (f : α → ScriptAct β) : intoHost r (x >>= f) w = intoHost r (f a) w₁ := by
  rcases run : x w with ⟨b | thrown | _, w₂⟩
  · cases (Act.recover_of_value run _).symm.trans value
    exact Act.recover_congr_run (Act.bind_of_value run f) _
  · obtain ⟨e, w₃, _, fails⟩ :=
      Act.of_bind_value ((Act.recover_of_failure run _).symm.trans value)
    cases fails
  · simp only [intoHost, Act.recover, run] at value
    cases value

theorem intoHost_bind_of_failure {e : Error} (failure : intoHost r x w = (.failure e, w₁))
    (f : α → ScriptAct β) : intoHost r (x >>= f) w = (.failure e, w₁) := by
  rcases run : x w with ⟨b | thrown | _, w₂⟩
  · cases (Act.recover_of_value run _).symm.trans failure
  · have passesOn := Act.recover_of_failure (Act.bind_of_failure run f) fun thrown => do
      Act.fail (← errorOfThrown r thrown)
    refine passesOn.trans ?_
    obtain fails | ⟨e', w₃, told, fails⟩ :=
      Act.of_bind_failure ((Act.recover_of_failure run _).symm.trans failure)
    · exact Act.bind_of_failure fails _
    · cases fails
      exact Act.bind_of_value told _
  · simp only [intoHost, Act.recover, run] at failure
    cases failure

theorem close_of_ended {it : Iterator} (ended : it.ended = true) :
    it.close r w = (.value (), w) := by
  rw [close, if_pos ended]
  rfl

theorem closing (calls : r.call = Script.callObject r') (source : Script.OpenIterator)
    (w : World) : Closing r r' source w where
  failed e w₁ reads := by
    rw [close, if_neg Bool.false_ne_true]
    exact intoHost_bind_of_failure reads _
  unwanted v w₁ reads noFunction := by
    rw [close, if_neg Bool.false_ne_true]
    refine (intoHost_bind_of_value reads _).trans ?_
    exact Act.recover_of_value (Act.bind_of_value noFunction _) _
  called v m w₁ reads callable borrows := by
    obtain ⟨f, o, finds, found, builtin⟩ := borrows
    have through : Script.callValue r (.object f) v [source.iterator] w₁ =
        r'.call m source.iterator [] w₁ := by
      rw [Script.callValue_of_function calls found (by rw [builtin]; rfl),
        Script.callObject_of_functionCall found builtin]
      exact Act.bind_of_value callable _
    rw [close, if_neg Bool.false_ne_true]
    refine (intoHost_bind_of_value reads _).trans (Act.recover_congr_run ?_ _)
    refine (Act.bind_of_value callable _).trans ((Act.bind_of_value finds.get_eq _).trans ?_)
    exact Act.bind_congr_run through _

end

/-! ### Whole iterations -/

/-- A request of the host is answered, unless the script never comes back. Whatever the script does
in its turns, and whatever happens between them: the items are the values of its replies up to the
first one that is no item, and if that is a failure, the failure. From then on the script is not
asked again, there are no items, and stopping does nothing. An iteration that goes on is stopped by
one call of the `return` of the iterator, if it has it. -/
theorem driven_iteration_ends {r r' : Reentry} (calls : r.call = Script.callObject r')
    (source : Script.OpenIterator) :
    (∀ w, (∃ reply w', Replies r source w reply w' ∧ advance r { source } w =
        (.value (reply.item?, { source, ended := reply.isLast }), w')) ∨
      ∃ w', ask r source w = (.exhausted, w')) ∧
    (∀ turns it, Drives r { source } turns it → ∃ asked idle values ending,
      turns = asked ++ idle ∧ Course r source asked idle values ending ∧
      turns.filterMap Turn.item = values.map .ok ++ (ending.bind Reply.item?).toList ∧
      it = { source, ended := ending.isSome } ∧
      (ending.isSome → ∀ w, it.advance r w = (.value (none, it), w) ∧
        it.close r w = (.value (), w)) ∧
      (ending = none → ∀ w, it = { source } ∧ Closing r r' source w)) ∧
    ∀ limit w items it w', take r limit { source } w = (.value (items, it), w') →
      ∃ turns, Turn.Linked w turns w' ∧ Drives r { source } turns it ∧
        items = turns.filterMap Turn.item := by
  refine ⟨fun w => ?_, fun turns it drives => ?_, fun limit w items it w' => drives_of_take⟩
  · obtain ⟨reply, w', replies⟩ | stuck := exists_reply r source w
    · exact .inl ⟨reply, w', replies, advance_of_reply replies⟩
    · exact .inr stuck
  · obtain ⟨asked, idle, values, ending, rfl, course, rfl⟩ := drives.course
    refine ⟨asked, idle, values, ending, rfl, course, course.items, rfl, fun ended w => ?_,
      fun goesOn w => ?_⟩
    · exact ⟨advance_of_ended ended, close_of_ended ended⟩
    · subst goesOn
      exact ⟨rfl, closing calls source w⟩

/-- Of two results, the second one is missing, and asking for it fails. The `return` of the iterator
is a function of the runtime. -/
theorem driven_iteration_ends_fixed :
    let next : Object := .function (.iterableNext [.bool true] [.bool false]) (.ofString "next") 0
    let returning : Object := .function .iterableReturn (.ofString "return") 0
    let w₀ : World := { engine := .fresh, runtime := 1 }
    let w₁ := w₀.withObject next
    let w₂ := w₁.withObject returning
    let returned : ObjectId := ⟨w₁.engine.objects.size⟩
    let w := w₂.withObject
      { kind := .ordinary, prototype := some Intrinsic.objectPrototype,
        properties := .ofList [(.ofString "return", .open_ (.object returned))] }
    let source : Script.OpenIterator :=
      { iterator := .object ⟨w₂.engine.objects.size⟩, next := .object ⟨w₀.engine.objects.size⟩ }
    let missing : ScriptException :=
      { name := "TypeError", message := "value is not a function", stack := some engineStack }
    let items : List (Except Error Value) := [.ok (.bool true), .error (.script missing)]
    (∃ it w', take Session.top 5 { source } w = (.value (items, it), w') ∧
      ∃ turns asked idle values ending, Turn.Linked w turns w' ∧
        Drives Session.top { source } turns it ∧ turns = asked ++ idle ∧
        Course Session.top source asked idle values ending ∧
        items = values.map .ok ++ (ending.bind Reply.item?).toList ∧
        it = { source, ended := ending.isSome } ∧ it.close Session.top w' = (.value (), w')) ∧
    close Session.top { source } w = intoHost Session.top
      (do let _ ← (Reentry.within 999).call returned source.iterator []; return ()) w := by
  intro next returning w₀ w₁ w₂ returned w source missing items
  have calls : Session.top.call = Script.callObject (.within 999) := rfl
  obtain ⟨_, runs, taken⟩ := driven_iteration_ends calls source
  constructor
  · obtain ⟨it, w', takes, ended⟩ : ∃ it w', take Session.top 5 { source } w =
        (.value (items, it), w') ∧ it.ended = true := exists_take (by decide +kernel)
    obtain ⟨turns, linked, drives, same⟩ := taken 5 w items it w' takes
    obtain ⟨asked, idle, values, ending, split, course, given, rfl, rest, _⟩ := runs turns it drives
    exact ⟨_, w', takes, turns, asked, idle, values, ending, linked, drives, split, course,
      same.trans given, rfl, (rest ended w').2⟩
  · have function : Ordinary w₂ returned returning := w₁.ordinary_withObject rfl
    have iterator : Ordinary w ⟨w₂.engine.objects.size⟩ _ := w₂.ordinary_withObject rfl
    have borrows : BorrowsCall w returned := by
      have all : BorrowsCall w₀ Intrinsic.functionPrototype := borrowsCall_fresh rfl
      obtain ⟨f, q, finds, found, builtin⟩ := (all.withObject next).withObject returning
      have own : BorrowsCall w₂ returned := ⟨f, q, .inherited function rfl finds, found, builtin⟩
      exact own.withObject _
    have finds : Finds w (.ofString "return") (some ⟨w₂.engine.objects.size⟩)
        (.object returned) :=
      .own iterator (Entries.get?_insert_self .empty _ _)
    have reads : readReturn Session.top source w = (.value (.object returned), w) :=
      readReturn_of_finds rfl finds
    have there : Ordinary w returned returning := function.withObject _
    have callable := Script.callable?_of_function there.found rfl
    obtain ⟨_, _, _, ending, _, _, _, same, _, goesOn⟩ := runs [] { source } (.nil _)
    have goes : ending = none := by
      have ended := congrArg Iterator.ended same
      exact Option.not_isSome_iff_eq_none.1 (ne_true_of_eq_false ended.symm)
    exact (goesOn goes w).2.called _ _ w reads callable borrows

/-- A function is called through what it has as `call`, so an iterator whose `return` has a `call`
of its own is not told. -/
theorem close_calls_substitute :
    let iterated (change : ScriptExpr) : Outcome Error (List (Except Error Value) × Value) :=
      ((do
        Act.restart
        let _ ← Session.execute (.expression (.sequence [
          .setGlobal "it" (.object ["next", "return"]
            [.function "next" (.object ["value"] [.bool true]),
              .function "return" (.setGlobal "told" (.bool true))]),
          change,
          .setGlobal "source" (.object [] []),
          .set (.variable "source") (.wellKnownSymbol "iterator")
            (.function "open" (.variable "it")),
          .null]))
        let items ← Session.iterate (← Session.global "source") (some 1) true
        return (items, ← Session.global "told") : HostAct _) {}).1
    let returned : ScriptExpr := .binary .get (.variable "it") (.string "return")
    iterated .null = .value ([.ok (.bool true)], .bool true) ∧
      iterated (.set returned (.string "call") (.function "other" .null)) =
        .value ([.ok (.bool true)], .undefined) := by
  decide +kernel

end ScriptBridge.Bridge.Iterator
