import SoaHomework.MovieEvents
import SoaHomework.RelyGuarantee

/-!
# Publishing events

`app/kafka_client.py` and the handler of `app/main.py` of the producer service,
with the queue of the Kafka client that all calls share. The broker acknowledges
or refuses a message at any time, and its callback runs at any time after that.
`flush` waits until all callbacks have run, or gives up.
-/

namespace SoaHomework.MovieProducer

open StatementProgram
open MovieAnalytics (MovieEvent)

/-! ## The queue -/

structure Settings where
  kafkaTopic : String
  producerPartitionKey : String

/-- The schema id and the record of `to_avro_dict` that `encode` writes. -/
structure Payload where
  schemaId : Nat
  record : MovieEvent
deriving DecidableEq, Repr

/-- Where a message is: on its way, acknowledged or refused by the broker, or
    reported to its callback, perhaps with an error. -/
inductive Delivery where
  | queued
  | acknowledged
  | refused (error : String)
  | reported (error : Option String)
deriving DecidableEq, Repr

structure Message where
  key : String
  value : Payload
  delivery : Delivery
deriving DecidableEq, Repr

/-- The broker has acknowledged the message. -/
def Message.acked (message : Message) : Bool :=
  match message.delivery with
  | .acknowledged | .reported none => true
  | _ => false

/-- The callback of the message has run. -/
def Message.isReported (message : Message) : Bool :=
  match message.delivery with
  | .reported _ => true
  | _ => false

/-- `delivery_error` of the attempt that has produced the message -/
def Message.deliveryError (message : Message) : List String :=
  match message.delivery with
  | .reported (some error) => [error]
  | _ => []

/-- The schema that the registry serves, and every message ever produced. The last
    field is a history that no command reads: the message that each call has produced
    last. -/
structure Producer where
  schemaId : Nat
  messages : List Message
  latest : Nat → Option Nat

/-! ## Commands -/

inductive Command where
  | encode (record : MovieEvent)
  | produce (key : String) (value : Payload)
  | flush
  | deliveryError (message : Nat)

@[reducible] def Result : Command → Type
  | .encode _ => Payload
  | .produce _ _ => Nat
  | .flush => Nat
  | .deliveryError _ => List String

inductive Failure where
  | exception (text : String)
deriving DecidableEq, Repr

@[reducible] def Reply (c : Command) : Type := Except Failure (Result c)

abbrev Job := Program Command Reply Failure

def command (c : Command) : Job (Result c) :=
  .step c fun
    | .ok value => .ret value
    | .error failure => .fail failure

/-! ## Publishing -/

def partitionKey (settings : Settings) (event : MovieEvent) : String :=
  if settings.producerPartitionKey = "movie_id" then event.movieId else event.userId

/-- `if delivery_error: raise delivery_error[0]` -/
def raiseFirst : List String → Job Unit
  | error :: _ => .fail (.exception error)
  | [] => .ret ()

/-- The body of `publish`. -/
def attempt (settings : Settings) (event : MovieEvent) : Job String := do
  let key := partitionKey settings event
  let payload ← command (.encode event)
  let message ← command (.produce key payload)
  let _ ← command .flush
  raiseFirst (← command (.deliveryError message))
  return key

/-- `stop_after_attempt(5)`: an attempt and four more. -/
def publish (settings : Settings) (event : MovieEvent) : Job String :=
  Program.retry (attempt settings event) 4

def safePublish := publish

/-- `POST /events`, and an event of the generator. -/
inductive Request where
  | createEvent (event : MovieEvent)
  | generate (event : MovieEvent)
deriving DecidableEq, Repr

def Request.event : Request → MovieEvent
  | .createEvent event => event
  | .generate event => event

inductive Response where
  | published (eventId : Nat) (topic partitionKey : String)
  | badGateway (detail : String)
  | generated (partitionKey : String)
deriving DecidableEq, Repr

/-- `publish` has returned. -/
def Response.isPublished : Response → Bool
  | .published _ _ _ | .generated _ => true
  | .badGateway _ => false

def handle (settings : Settings) : Request → Job Response
  | .createEvent event => do
      match ← (safePublish settings event).attempt with
      | .ok key => return .published event.eventId settings.kafkaTopic key
      | .error (.exception text) => return .badGateway text
  | .generate event => do
      return .generated (← safePublish settings event)

/-! ## Execution -/

/-- What becomes of a command: it completes, it raises, or it gives up waiting. -/
inductive Choice where
  | completes
  | raises (text : String)
  | timesOut
deriving DecidableEq, Repr

/-- The length of the client's queue: the messages whose callbacks have not run. -/
def Producer.pending (s : Producer) : Nat := s.messages.countP fun message => !message.isReported

def exec (i : Nat) (c : Command) (choice : Choice) (s : Producer) :
    Option (Reply c × Producer) :=
  match c, choice with
  | .encode record, .completes => some (.ok ⟨s.schemaId, record⟩, s)
  | .encode _, .raises text => some (.error (.exception text), s)
  | .produce key value, .completes =>
      some (.ok s.messages.length, { s with
        messages := s.messages ++ [⟨key, value, .queued⟩]
        latest := Function.update s.latest i (some s.messages.length) })
  | .produce _ _, .raises text => some (.error (.exception text), s)
  | .flush, .completes => if s.pending = 0 then some (.ok 0, s) else none
  | .flush, .timesOut => some (.ok s.pending, s)
  | .deliveryError message, .completes =>
      some (.ok ((s.messages[message]?).elim [] Message.deliveryError), s)
  | _, _ => none

/-- What the broker and the client's threads do with a message. -/
inductive Change where
  | acknowledge (message : Nat)
  | refuse (message : Nat) (error : String)
  | callback (message : Nat)
deriving DecidableEq, Repr

def Change.message : Change → Nat
  | .acknowledge message => message
  | .refuse message _ => message
  | .callback message => message

def Delivery.after (delivery : Delivery) : Change → Option Delivery
  | .acknowledge _ => if delivery = .queued then some .acknowledged else none
  | .refuse _ error => if delivery = .queued then some (.refused error) else none
  | .callback _ =>
      match delivery with
      | .acknowledged => some (.reported none)
      | .refused error => some (.reported (some error))
      | _ => none

def Producer.after (s : Producer) (change : Change) : Option Producer :=
  match s.messages[change.message]? with
  | some message => (message.delivery.after change).map fun delivery =>
      { s with messages := s.messages.set change.message { message with delivery := delivery } }
  | none => none

def service (settings : Settings) :
    Service Command Reply Failure Response Request Choice Change Producer where
  handler := handle settings
  exec := exec
  close _ s := s
  outside change s := s.after change

abbrev ProducerPool := Pool Command Reply Failure Response Request Producer

/-! ## What calls rely on -/

/-- The broker has acknowledged a copy of the event. -/
def Acknowledged (event : MovieEvent) (s : Producer) : Prop :=
  ∃ message ∈ s.messages, message.value.record = event ∧ message.acked = true

/-- The callback of the message has run. -/
def Reported (message : Nat) (s : Producer) : Prop :=
  ∃ sent, s.messages[message]? = some sent ∧ sent.isReported = true

/-- The call need not wait any longer: a copy of its event is acknowledged, or the message
    of its attempt is reported. -/
def Covered (request : Request) (i : Nat) (s : Producer) : Prop :=
  Acknowledged request.event s ∨ ∃ message, s.latest i = some message ∧ Reported message s

/-- Messages stay and keep what they carry, acknowledged ones stay acknowledged, and
    nothing happens to reported ones. -/
def Advanced (s s' : Producer) : Prop :=
  ∀ (i : Nat) message, s.messages[i]? = some message → ∃ message', s'.messages[i]? = some message' ∧
    message'.value = message.value ∧ (message.acked = true → message'.acked = true) ∧
    (message.isReported = true → message' = message)

/-- An attempt has produced the message with the event. -/
def Produced (event : MovieEvent) (message : Nat) (s : Producer) : Prop :=
  ∃ sent, s.messages[message]? = some sent ∧ sent.value.record = event

/-- The message of the attempt that the call is making. -/
def Sent (request : Request) (i message : Nat) (s : Producer) : Prop :=
  Produced request.event message s ∧ s.latest i = some message

/-- A call waits until it is covered, unless no message is left in the queue. -/
def delivery : Discipline Command Failure Response Request Producer where
  inv _ := True
  rely _ i s s' := Advanced s s' ∧ s'.latest i = s.latest i
  guarantee _ i s s' := Advanced s s' ∧ ∀ j, i ≠ j → s'.latest j = s.latest j
  unused _ _ := True
  compatible _ _ := True
  permitted request i c s := c = .flush → s.pending ≠ 0 → Covered request i s
  known request i c s := c = .flush → ∃ message, Sent request i message s
  answer request _ result s := ∀ response, result = .ok response → response.isPublished = true →
    Acknowledged request.event s

theorem Advanced.refl (s : Producer) : Advanced s s :=
  fun _ message h => ⟨message, h, rfl, id, fun _ => rfl⟩

theorem Advanced.trans {s s' s'' : Producer} (h : Advanced s s') (h' : Advanced s' s'') :
    Advanced s s'' := by
  intro i message hi
  obtain ⟨message', hi', hvalue, hacked, hreported⟩ := h i message hi
  obtain ⟨message'', hi'', hvalue', hacked', hreported'⟩ := h' i message' hi'
  refine ⟨message'', hi'', hvalue'.trans hvalue, fun ha => hacked' (hacked ha), fun hr => ?_⟩
  obtain rfl := hreported hr
  exact hreported' hr

theorem Acknowledged.advance {event : MovieEvent} {s s' : Producer} (h : Acknowledged event s)
    (hadvanced : Advanced s s') : Acknowledged event s' := by
  obtain ⟨message, hmem, hrecord, hacked⟩ := h
  obtain ⟨i, hi⟩ := List.mem_iff_getElem?.mp hmem
  obtain ⟨message', hi', hvalue, hacked', _⟩ := hadvanced i message hi
  exact ⟨message', List.mem_of_getElem? hi', hvalue ▸ hrecord, hacked' hacked⟩

/-- A message that is settled stays so until the errors are read. -/
theorem Reported.advance {message : Nat} {s s' : Producer} (h : Reported message s)
    (hadvanced : Advanced s s') : Reported message s' := by
  obtain ⟨sent, hsent, hreported⟩ := h
  obtain ⟨sent', hsent', _, _, hsame⟩ := hadvanced message sent hsent
  obtain rfl := hsame hreported
  exact ⟨_, hsent', hreported⟩

theorem Produced.advance {event : MovieEvent} {message : Nat} {s s' : Producer}
    (h : Produced event message s) (hadvanced : Advanced s s') : Produced event message s' := by
  obtain ⟨sent, hsent, hrecord⟩ := h
  obtain ⟨sent', hsent', hvalue, _⟩ := hadvanced message sent hsent
  exact ⟨sent', hsent', hvalue ▸ hrecord⟩

theorem advanced_append {s s' : Producer} {message : Message}
    (h : s'.messages = s.messages ++ [message]) : Advanced s s' := by
  intro i sent hi
  obtain ⟨hlt, _⟩ := List.getElem?_eq_some_iff.mp hi
  exact ⟨sent, h ▸ (List.getElem?_append_left hlt).trans hi, rfl, id, fun _ => rfl⟩

/-- What happens to a message never takes an acknowledgement back. -/
theorem acked_after {message : Message} {change : Change} {after : Delivery}
    (h : message.delivery.after change = some after) (hacked : message.acked = true) :
    ({ message with delivery := after } : Message).acked = true := by
  obtain ⟨key, value, delivery⟩ := message
  cases delivery with
  | queued => cases hacked
  | refused error => cases hacked
  | acknowledged =>
      cases change with
      | acknowledge i => cases h
      | refuse i error => cases h
      | callback i =>
          cases h
          rfl
  | reported error =>
      cases change with
      | acknowledge i => cases h
      | refuse i error => cases h
      | callback i => cases h

/-- Nothing happens to a message whose callback has run. -/
theorem not_reported_of_after {message : Message} {change : Change} {after : Delivery}
    (h : message.delivery.after change = some after) : message.isReported = false := by
  obtain ⟨key, value, delivery⟩ := message
  cases delivery with
  | queued => rfl
  | refused error => rfl
  | acknowledged => rfl
  | reported error =>
      cases change with
      | acknowledge i => cases h
      | refuse i error => cases h
      | callback i => cases h

theorem advanced_after {s s' : Producer} {change : Change} (h : s.after change = some s') :
    Advanced s s' ∧ s'.latest = s.latest := by
  unfold Producer.after at h
  split at h
  · rename_i message hmessage
    obtain ⟨after, hafter, rfl⟩ := Option.map_eq_some_iff.mp h
    refine ⟨fun i sent hi => ?_, rfl⟩
    by_cases hsame : change.message = i
    · subst hsame
      obtain rfl := Option.some.inj (hmessage.symm.trans hi)
      obtain ⟨hlt, _⟩ := List.getElem?_eq_some_iff.mp hi
      refine ⟨_, List.getElem?_set_self hlt, rfl, acked_after hafter, fun hreported => ?_⟩
      rw [not_reported_of_after hafter] at hreported
      cases hreported
    · exact ⟨sent, (List.getElem?_set_ne hsame).trans hi, rfl, id, fun _ => rfl⟩
  · cases h

/-- A flush that completes leaves no message unreported. -/
theorem reported_of_pending {s : Producer} (h : s.pending = 0) {message : Nat} {sent : Message}
    (hsent : s.messages[message]? = some sent) : Reported message s := by
  have hnone := List.countP_eq_zero.mp h sent (List.mem_of_getElem? hsent)
  exact ⟨sent, hsent, by simpa using hnone⟩

/-- A reported message without an error has been acknowledged. -/
theorem acked_of_reported {message : Message} (h : message.isReported = true)
    (herror : message.deliveryError = []) : message.acked = true := by
  obtain ⟨key, value, delivery⟩ := message
  cases delivery with
  | queued => cases h
  | acknowledged => rfl
  | refused error => cases h
  | reported error =>
      cases error with
      | none => rfl
      | some text => cases herror

/-! ## Calls -/

section Calls

variable {settings : Settings} {request : Request} {i : Nat}

theorem triple_command {c : Command} {pre : Producer → Prop} {post : Reply c → Producer → Prop}
    (hstable : ∀ s s', Advanced s s' → s'.latest i = s.latest i → pre s → pre s')
    (hknown : ∀ s, pre s → delivery.known request i c s)
    (hexec : ∀ s choice answer s', pre s → delivery.permitted request i c s →
      exec i c choice s = some (answer, s') →
        delivery.guarantee request i s s' ∧ post answer s') :
    delivery.Triple (service settings) request i pre (command c) post := by
  apply Discipline.Triple.step post
  · exact fun s s' _ hrely hpre => hstable s s' hrely.1 hrely.2 hpre
  · intro s _ hpre
    refine ⟨hknown s hpre, ?_⟩
    intro hpermitted choice answer s' hrun
    exact ⟨trivial, hexec s choice answer s' hpre hpermitted hrun⟩
  · intro answer
    cases answer with
    | ok value => exact Discipline.Triple.ret fun _ _ h => h
    | error failure => exact Discipline.Triple.fail fun _ _ h => h

theorem guarantee_refl (s : Producer) : delivery.guarantee request i s s :=
  ⟨.refl s, fun _ _ => rfl⟩

/-- A postcondition of the programs that return. -/
def OnOk {α : Type} (post : α → Producer → Prop) : Except Failure α → Producer → Prop :=
  fun result s => ∀ value, result = .ok value → post value s

theorem triple_bind {α β : Type} {pre : Producer → Prop} {p : Job α} {f : α → Job β}
    {middle : α → Producer → Prop} {post : β → Producer → Prop}
    (hfirst : delivery.Triple (service settings) request i pre p (OnOk middle))
    (hrest : ∀ value, delivery.Triple (service settings) request i (middle value) (f value)
      (OnOk post)) :
    delivery.Triple (service settings) request i pre (p >>= f) (OnOk post) := by
  apply Discipline.Triple.bind (OnOk middle) hfirst
  · intro value
    exact (hrest value).weaken _ fun s _ h => h value rfl
  · intro error s _ _ value heq
    cases heq

theorem triple_encode {event : MovieEvent} :
    delivery.Triple (service settings) request i (fun _ => True) (command (.encode event))
      (OnOk fun payload _ => payload.record = event) := by
  apply triple_command (fun _ _ _ _ _ => trivial) (by simp [delivery])
  intro s choice answer s' _ _ hexec
  cases choice with
  | completes =>
      cases hexec
      refine ⟨guarantee_refl s, ?_⟩
      intro payload heq
      cases heq
      rfl
  | raises text =>
      cases hexec
      refine ⟨guarantee_refl s, ?_⟩
      intro payload heq
      cases heq
  | timesOut => cases hexec

theorem Sent.advance {message : Nat} {s s' : Producer} (h : Sent request i message s)
    (hadvanced : Advanced s s') (hlatest : s'.latest i = s.latest i) :
    Sent request i message s' :=
  ⟨h.1.advance hadvanced, hlatest.trans h.2⟩

theorem triple_produce {key : String} {payload : Payload}
    (hrecord : payload.record = request.event) :
    delivery.Triple (service settings) request i (fun _ => True) (command (.produce key payload))
      (OnOk (Sent request i)) := by
  apply triple_command (fun _ _ _ _ _ => trivial) (by simp [delivery])
  intro s choice answer s' _ _ hexec
  cases choice with
  | completes =>
      cases hexec
      refine ⟨⟨advanced_append rfl, fun j hij => Function.update_of_ne hij.symm _ _⟩, ?_⟩
      intro message heq
      cases heq
      exact ⟨⟨_, List.getElem?_concat_length, hrecord⟩, Function.update_self _ _ _⟩
  | raises text =>
      cases hexec
      refine ⟨guarantee_refl s, ?_⟩
      intro message heq
      cases heq
  | timesOut => cases hexec

/-- After `flush` a copy of the event is acknowledged, or the message is reported. -/
def Flushed (request : Request) (message : Nat) (s : Producer) : Prop :=
  Produced request.event message s ∧ (Acknowledged request.event s ∨ Reported message s)

theorem Flushed.advance {message : Nat} {s s' : Producer} (h : Flushed request message s)
    (hadvanced : Advanced s s') : Flushed request message s' :=
  ⟨h.1.advance hadvanced, h.2.imp (·.advance hadvanced) (·.advance hadvanced)⟩

theorem triple_flush {message : Nat} :
    delivery.Triple (service settings) request i (Sent request i message) (command .flush)
      (OnOk fun _ => Flushed request message) := by
  apply triple_command (fun _ _ hadvanced hlatest hsent => hsent.advance hadvanced hlatest)
    fun s hsent _ => ⟨message, hsent⟩
  intro s choice answer s' hsent hpermitted hexec
  have hflushed : Flushed request message s := by
    refine ⟨hsent.1, ?_⟩
    by_cases hpending : s.pending = 0
    · obtain ⟨sent, hmessage, _⟩ := hsent.1
      exact Or.inr (reported_of_pending hpending hmessage)
    · refine (hpermitted rfl hpending).imp id ?_
      rintro ⟨message', hlatest, hreported⟩
      obtain rfl := Option.some.inj (hsent.2.symm.trans hlatest)
      exact hreported
  cases choice with
  | completes =>
      simp only [exec] at hexec
      split at hexec
      · cases hexec
        exact ⟨guarantee_refl s, fun _ _ => hflushed⟩
      · cases hexec
  | raises text => cases hexec
  | timesOut =>
      cases hexec
      exact ⟨guarantee_refl s, fun _ _ => hflushed⟩

/-- A flushed message without an error means that a copy of the event is acknowledged. -/
theorem Flushed.acknowledged {message : Nat} {s : Producer} (h : Flushed request message s)
    (herror : (s.messages[message]?).elim [] Message.deliveryError = []) :
    Acknowledged request.event s := by
  obtain ⟨⟨sent, hsent, hrecord⟩, hacknowledged | ⟨sent', hsent', hreported⟩⟩ := h
  · exact hacknowledged
  · obtain rfl := Option.some.inj (hsent.symm.trans hsent')
    rw [hsent] at herror
    exact ⟨sent, List.mem_of_getElem? hsent, hrecord, acked_of_reported hreported herror⟩

theorem triple_deliveryError {message : Nat} :
    delivery.Triple (service settings) request i (Flushed request message)
      (command (.deliveryError message))
      (OnOk fun errors s => errors = [] → Acknowledged request.event s) := by
  apply triple_command (fun _ _ hadvanced _ hflushed => hflushed.advance hadvanced)
    (by simp [delivery])
  intro s choice answer s' hflushed _ hexec
  cases choice with
  | completes =>
      cases hexec
      refine ⟨guarantee_refl s, ?_⟩
      intro errors heq hnone
      cases heq
      exact hflushed.acknowledged hnone
  | raises text => cases hexec
  | timesOut => cases hexec

theorem triple_raiseFirst {errors : List String} :
    delivery.Triple (service settings) request i
      (fun s => errors = [] → Acknowledged request.event s) (raiseFirst errors)
      (OnOk fun _ => Acknowledged request.event) := by
  cases errors with
  | nil => exact Discipline.Triple.ret fun _ _ h _ _ => h rfl
  | cons error errors =>
      apply Discipline.Triple.fail
      intro s _ _ value heq
      cases heq

theorem triple_attempt :
    delivery.Triple (service settings) request i (fun _ => True)
      (attempt settings request.event) (OnOk fun _ => Acknowledged request.event) := by
  apply triple_bind triple_encode
  intro payload
  apply Discipline.Triple.weaken (fun s => payload.record = request.event ∧ True)
  · apply Discipline.Triple.pure
    intro hrecord
    apply triple_bind (triple_produce hrecord)
    intro message
    apply triple_bind triple_flush
    intro _
    apply triple_bind triple_deliveryError
    intro errors
    apply triple_bind triple_raiseFirst
    intro _
    apply Discipline.Triple.ret
    exact fun s _ hacknowledged _ _ => hacknowledged
  · exact fun _ _ hrecord => ⟨hrecord, trivial⟩

theorem triple_publish :
    delivery.Triple (service settings) request i (fun _ => True)
      (publish settings request.event) (OnOk fun _ => Acknowledged request.event) := by
  apply Discipline.Triple.retry
  exact triple_attempt.mono (fun _ _ h => h) fun _ _ _ h => ⟨h, fun _ _ => trivial⟩

theorem triple_handle :
    delivery.Triple (service settings) request i (fun _ => True) (handle settings request)
      (delivery.answer request i) := by
  have hpublish : delivery.Triple (service settings) request i (fun _ => True)
      (publish settings request.event) (OnOk fun _ => Acknowledged request.event) := triple_publish
  cases request with
  | generate event =>
      apply triple_bind hpublish
      intro key
      apply Discipline.Triple.ret
      exact fun s _ hacknowledged _ _ _ => hacknowledged
  | createEvent event =>
      apply Discipline.Triple.attempt_bind _ hpublish
      intro outcome
      cases outcome with
      | ok key =>
          apply Discipline.Triple.ret
          intro s _ hacknowledged _ _ _
          exact hacknowledged key rfl
      | error failure =>
          cases failure with
          | exception text =>
              apply Discipline.Triple.ret
              intro s _ _ response heq hpublished
              cases heq
              cases hpublished

end Calls

theorem sound (settings : Settings) : delivery.Sound (service settings) where
  rely_refl _ _ s := ⟨.refl s, rfl⟩
  rely_trans _ _ _ _ _ h h' := ⟨h.1.trans h'.1, h'.2.trans h.2⟩
  guarantee_rely _ _ _ j _ _ hij _ _ h := ⟨h.1, h.2 j hij⟩
  guarantee_unused _ _ _ _ _ _ _ _ := trivial
  guarantee_answer _ _ _ _ _ _ _ _ _ h hanswer response hresponse hpublished :=
    (hanswer response hresponse hpublished).advance h.1
  close_inv _ _ _ := trivial
  close_guarantee _ _ s _ := guarantee_refl s
  close_answer _ _ _ _ _ h := h
  answer_stable _ _ _ _ _ _ hrely hanswer response hresponse hpublished :=
    (hanswer response hresponse hpublished).advance hrely.1
  outside_inv _ _ _ _ _ := trivial
  outside_rely _ _ _ hchange _ _ i := by
    obtain ⟨hadvanced, hlatest⟩ := advanced_after hchange
    exact ⟨hadvanced, congrFun hlatest i⟩
  outside_unused _ _ _ _ _ _ := trivial
  handler_safe _ _ := triple_handle

/-! ## What an attempt does after its flush -/

/-- The program is one in which `publish` has returned. -/
def Returns (program : Job Response) : Prop :=
  ∃ response, program.outcome? = some (.ok response) ∧ response.isPublished = true

/-- The errors of the message are read next, and `publish` returns when there are none. -/
def Reads (latest : Option Nat) : Job Response → Prop
  | .step (.deliveryError message) next =>
      latest = some message ∧ ∀ errors, Returns (next (.ok errors)) ↔ errors = []
  | _ => False

/-- After each `flush` the errors of the message produced last are read. -/
def Attempts : Option Nat → Job Response → Prop
  | _, .ret _ => True
  | _, .fail _ => True
  | latest, .step (.encode _) next => ∀ answer, Attempts latest (next answer)
  | latest, .step (.produce _ _) next =>
      (∀ message, Attempts (some message) (next (.ok message))) ∧
        ∀ failure, Attempts latest (next (.error failure))
  | latest, .step .flush next =>
      (∀ left, Reads latest (next (.ok left))) ∧ ∀ answer, Attempts latest (next answer)
  | latest, .step (.deliveryError _) next => ∀ answer, Attempts latest (next answer)

section Attempts

variable {settings : Settings} {event : MovieEvent} {k : Except Failure String → Job Response}

theorem attempts_attempt (hok : ∀ key, Returns (k (.ok key)))
    (herror : ∀ failure, ¬ Returns (k (.error failure)))
    (hk : ∀ outcome latest, Attempts latest (k outcome)) (latest : Option Nat) :
    Attempts latest ((attempt settings event).attempt >>= k) := by
  rintro (failure | payload)
  · exact hk _ _
  refine ⟨fun message => ⟨fun left => ⟨rfl, fun errors => ?_⟩, ?_⟩, fun failure => hk _ _⟩
  · rcases errors with _ | ⟨error, errors⟩
    · exact iff_of_true (hok _) rfl
    · exact iff_of_false (herror _) (by simp)
  · rintro (failure | left)
    · exact hk _ _
    · rintro (failure | errors)
      · exact hk _ _
      · rcases errors with _ | ⟨error, errors⟩
        · exact hk _ _
        · exact hk _ _

/-- Trying again after an error. -/
theorem retry_attempt_bind {α β ε : Type} (p : Job α) (left : Nat)
    (k : Except Failure α → Program Command Reply ε β) :
    (Program.retry p (left + 1)).attempt >>= k = p.attempt >>= fun outcome =>
      match outcome with
      | .ok value => k (.ok value)
      | .error _ => (Program.retry p left).attempt >>= k := by
  rw [Program.retry]
  generalize Program.retry p left = again
  induction p with
  | ret value => rfl
  | fail error => rfl
  | step c next ih => exact congrArg (Program.step c) (funext fun answer => ih answer)

theorem attempts_retry (hok : ∀ key, Returns (k (.ok key)))
    (herror : ∀ failure, ¬ Returns (k (.error failure)))
    (hk : ∀ outcome latest, Attempts latest (k outcome)) (left : Nat) (latest : Option Nat) :
    Attempts latest ((Program.retry (attempt settings event) left).attempt >>= k) := by
  induction left generalizing latest with
  | zero => exact attempts_attempt hok herror hk latest
  | succ left ih =>
      rw [retry_attempt_bind]
      refine attempts_attempt ?_ (fun failure => ?_) (fun outcome latest => ?_) latest
      · exact hok
      · cases left with
        | zero => exact fun ⟨response, houtcome, _⟩ => by cases houtcome
        | succ left => exact fun ⟨response, houtcome, _⟩ => by cases houtcome
      · cases outcome with
        | ok key => exact hk _ _
        | error failure => exact ih latest

/-- A caller that does not catch the errors. -/
theorem bind_eq_attempt_bind {α β : Type} (p : Job α) (f : α → Job β) :
    p >>= f = p.attempt >>= fun outcome => match outcome with
      | .ok value => f value
      | .error failure => .fail failure := by
  induction p with
  | ret value => rfl
  | fail error => rfl
  | step c next ih => exact congrArg (Program.step c) (funext fun answer => ih answer)

theorem attempts_handle (request : Request) (latest : Option Nat) :
    Attempts latest (handle settings request) := by
  cases request with
  | createEvent event =>
      refine attempts_retry (fun key => ⟨_, rfl, rfl⟩) ?_ ?_ 4 latest
      · rintro ⟨text⟩ ⟨response, houtcome, hpublished⟩
        cases houtcome
        cases hpublished
      · rintro (⟨text⟩ | key) latest
        · trivial
        · trivial
  | generate event =>
      change Attempts latest (safePublish settings event >>= fun key => .ret (.generated key))
      rw [bind_eq_attempt_bind]
      refine attempts_retry (fun key => ⟨_, rfl, rfl⟩) ?_ ?_ 4 latest
      · rintro failure ⟨response, houtcome, _⟩
        cases houtcome
      · rintro (failure | key) latest
        · trivial
        · trivial

/-- Only producing a message changes the latest one of the call. -/
theorem attempts_exec {i : Nat} {c : Command} {next : Reply c → Job Response} {choice : Choice}
    {answer : Reply c} {s s' : Producer} (h : exec i c choice s = some (answer, s'))
    (hprogram : Attempts (s.latest i) (.step c next)) :
    Attempts (s'.latest i) (next answer) ∧ ∀ j, j ≠ i → s'.latest j = s.latest j := by
  cases c with
  | encode record =>
      cases choice <;> cases h <;> exact ⟨hprogram _, fun _ _ => rfl⟩
  | produce key value =>
      cases choice with
      | completes =>
          cases h
          refine ⟨?_, fun j hj => Function.update_of_ne hj _ _⟩
          change Attempts (Function.update s.latest i (some _) i) _
          rw [Function.update_self]
          exact hprogram.1 _
      | raises text =>
          cases h
          exact ⟨hprogram.2 _, fun _ _ => rfl⟩
      | timesOut => cases h
  | flush =>
      have hsame : s' = s := by
        cases choice with
        | completes =>
            simp only [exec, Option.ite_none_right_eq_some, Option.some.injEq, Prod.mk.injEq] at h
            exact h.2.2.symm
        | raises text => cases h
        | timesOut =>
            cases h
            rfl
      subst hsame
      exact ⟨hprogram.2 answer, fun _ _ => rfl⟩
  | deliveryError message =>
      cases choice <;> cases h
      exact ⟨hprogram _, fun _ _ => rfl⟩

/-- In every run the calls are making their attempts. -/
theorem attempts_run {s : Producer} {events : List (Event Request Choice Change)}
    {pool : ProducerPool} (h : (service settings).run (Pool.initial s) events = some pool)
    {i : Nat} {request : Request} {program : Job Response} (hruns : pool.Runs i request program) :
    Attempts (pool.shared.latest i) program := by
  refine (Service.Steps.of_run events h).invariant
    (P := fun pool => ∀ i request program, pool.Runs i request program →
      Attempts (pool.shared.latest i) program) ?_ ?_ i request program hruns
  swap
  · intro i request program hi
    cases hi
  intro middle event final hmiddle _ hnext j request' program' hj
  have hupdate : ∀ {i request before status}, middle.Runs i request before →
      (∀ program, status ≠ .running program) →
      (middle.update i status middle.shared).Runs j request' program' →
      Attempts (middle.shared.latest j) program' := by
    intro i request before status hi hstatus hj
    rcases Service.thread_update hi hj with ⟨rfl, _, heq⟩ | ⟨_, hj'⟩
    · exact absurd heq.symm (hstatus program')
    · exact hmiddle j request' program' hj'
  cases Service.move_of_next hnext with
  | start request =>
      rcases Service.thread_start hj with hbefore | ⟨_, _, heq⟩
      · exact hmiddle j request' program' hbefore
      · cases heq
        exact attempts_handle request _
  | exec hthread hexec =>
      obtain ⟨hrest, hothers⟩ := attempts_exec hexec (hmiddle _ _ _ hthread)
      rcases Service.thread_update hthread hj with ⟨rfl, _, heq⟩ | ⟨hij, hj'⟩
      · cases heq
        exact hrest
      · change Attempts _ _
        rw [Pool.update, hothers j hij.symm]
        exact hmiddle j request' program' hj'
  | answer hthread _ => exact hupdate hthread (fun _ h => by cases h) hj
  | stop hthread => exact hupdate hthread (fun _ h => by cases h) hj
  | outside hchange =>
      change Attempts _ _
      rw [(advanced_after hchange).2]
      exact hmiddle j request' program' hj

end Attempts

/-! ## Runs -/

/-- `publish` has returned. -/
def Returned (pool : ProducerPool) (i : Nat) (request : Request) (response : Response) : Prop :=
  response.isPublished = true ∧ (pool.Answered i request (.ok response) ∨
    ∃ program, pool.Runs i request program ∧ program.outcome? = some (.ok response))

def Producer.covers (s : Producer) (request : Request) (i : Nat) : Bool :=
  (s.messages.any fun message => message.acked && decide (message.value.record = request.event)) ||
    (s.latest i).any fun message => (s.messages[message]?).any Message.isReported

theorem covers_iff {s : Producer} {request : Request} {i : Nat} :
    s.covers request i = true ↔ Covered request i s := by
  simp only [Producer.covers, Bool.or_eq_true, List.any_eq_true, Bool.and_eq_true,
    decide_eq_true_eq, Option.any_eq_true, Covered, Acknowledged, Reported, and_comm]

/-- No `flush` gives up after its ten seconds while the message of its attempt has not been
    reported, unless the broker has acknowledged a copy of the event. -/
def waits (pool : ProducerPool) : Event Request Choice Change → Bool
  | .step i .timesOut =>
      match pool.threads[i]? with
      | some ⟨request, .running (.step .flush _)⟩ => pool.shared.covers request i
      | _ => true
  | _ => true

theorem allowed_of_waits {settings : Settings} {pool final : ProducerPool}
    {event : Event Request Choice Change} (h : waits pool event = true)
    (hnext : (service settings).next pool event = some final) : delivery.Allowed pool event := by
  cases event with
  | start request => exact fun _ _ _ _ => ⟨trivial, trivial⟩
  | stop i => trivial
  | outside change => trivial
  | step i choice =>
      rintro request c next hruns rfl hpending
      rw [Service.next, Service.program?_eq_some.mpr ⟨request, hruns⟩] at hnext
      cases choice with
      | completes => simp [service, exec, hpending] at hnext
      | raises text => cases hnext
      | timesOut =>
          rw [waits, hruns] at h
          exact covers_iff.mp h

section Claim

variable {settings : Settings} {s : Producer} {events : List (Event Request Choice Change)}
  {pool : ProducerPool} {i : Nat} {request : Request}

theorem holds_of_waits (h : (service settings).run (Pool.initial s) events = some pool)
    (hwaits : (service settings).passes waits (Pool.initial s) events = true) :
    delivery.Holds (service settings) pool :=
  Service.run_invariant (P := fun pool => delivery.Holds (service settings) pool)
    (fun _ _ _ hpool hcheck hnext =>
      Discipline.holds_next (sound settings) hpool (allowed_of_waits hcheck hnext) hnext)
    (Discipline.holds_initial trivial fun _ => trivial) hwaits h

theorem acknowledged_of_returned (hholds : delivery.Holds (service settings) pool)
    {response : Response} (hreturned : Returned pool i request response) :
    Acknowledged request.event pool.shared := by
  obtain ⟨hpublished, hanswered | ⟨program, hruns, houtcome⟩⟩ := hreturned
  · exact hholds.answered i request _ hanswered response rfl hpublished
  · have hsafe := hholds.running i request program hruns
    cases program with
    | ret value =>
        cases houtcome
        exact hsafe response rfl hpublished
    | fail error => cases houtcome
    | step c next => cases houtcome

theorem Returned.iff_returns {program : Job Response} (hruns : pool.Runs i request program) :
    (∃ response, Returned pool i request response) ↔ Returns program := by
  constructor
  · rintro ⟨response, hpublished, hanswered | ⟨program', hruns', houtcome⟩⟩
    · cases hruns.symm.trans hanswered
    · obtain ⟨_, rfl⟩ := Service.runs_unique hruns hruns'
      exact ⟨response, houtcome, hpublished⟩
  · rintro ⟨response, houtcome, hpublished⟩
    exact ⟨response, hpublished, Or.inr ⟨program, hruns, houtcome⟩⟩

/-- A command of a call. -/
theorem next_command {c : Command} {next : Reply c → Job Response} {choice : Choice}
    {answer : Reply c} {s' : Producer} (hruns : pool.Runs i request (.step c next))
    (hexec : exec i c choice pool.shared = some (answer, s')) :
    (service settings).next pool (.step i choice) =
      some (pool.update i (.running (next answer)) s') := by
  simp only [Service.next, Service.program?_eq_some.mpr ⟨request, hruns⟩, service, hexec,
    Option.map_some]

/-- What a call does whose `flush` gives up, when nothing else happens: it reads the errors
    of its message, and returns when there are none. -/
theorem run_after_flush {next : Reply .flush → Job Response}
    (hruns : pool.Runs i request (.step .flush next))
    (hattempts : Attempts (pool.shared.latest i) (.step .flush next)) :
    ∃ message program final, pool.shared.latest i = some message ∧
      (service settings).run pool [.step i .timesOut, .step i .completes] = some final ∧
      final.shared = pool.shared ∧ final.Runs i request program ∧
      (Returns program ↔ (pool.shared.messages[message]?).elim [] Message.deliveryError = []) := by
  have hreads := hattempts.1 pool.shared.pending
  have hfirst : (service settings).next pool (.step i .timesOut) =
      some (pool.update i (.running (next (.ok pool.shared.pending))) pool.shared) :=
    next_command hruns rfl
  generalize next (.ok pool.shared.pending) = program at hreads hfirst
  obtain ⟨message, rest, rfl⟩ : ∃ message rest, program = .step (.deliveryError message) rest := by
    cases program with
    | ret value => exact hreads.elim
    | fail error => exact hreads.elim
    | step c rest =>
        cases c with
        | deliveryError message => exact ⟨message, rest, rfl⟩
        | _ => exact hreads.elim
  have hthread := Service.update_self hruns (.running (.step (.deliveryError message) rest))
    pool.shared
  have hsecond : (service settings).next _ (.step i .completes) = some _ :=
    next_command hthread rfl
  refine ⟨message, _, _, hreads.1, ?_, ?_, Service.update_self hthread _ pool.shared, hreads.2 _⟩
  · rw [Service.run, hfirst, Option.bind_some, Service.run, hsecond]
    rfl
  · rfl

/-- Errors are reported ones. -/
theorem reported_of_deliveryError {message : Nat}
    (h : (s.messages[message]?).elim [] Message.deliveryError ≠ []) : Reported message s := by
  cases hsent : s.messages[message]? with
  | none => simp [hsent] at h
  | some sent =>
      refine ⟨sent, hsent, ?_⟩
      obtain ⟨key, value, delivery⟩ := sent
      cases delivery with
      | reported error => rfl
      | _ => simp [hsent, Message.deliveryError] at h

/-- When `publish` has returned, the broker has acknowledged a copy of the event, if no
    `flush` has given up on a message that was not reported while no copy of the event was
    acknowledged. Where one does, the call can return at once without such a copy. -/
theorem publish_delivered (h : (service settings).run (Pool.initial s) events = some pool)
    (hwaits : (service settings).passes waits (Pool.initial s) events = true) :
    (∀ i request response, Returned pool i request response →
      Acknowledged request.event pool.shared) ∧
    ∀ i request next, pool.Runs i request (.step .flush next) →
      (Covered request i pool.shared ↔ ∀ final response,
        (service settings).run pool [.step i .timesOut, .step i .completes] = some final →
          Returned final i request response → Acknowledged request.event final.shared) := by
  have hholds := holds_of_waits h hwaits
  refine ⟨fun i request response => acknowledged_of_returned hholds, fun i request next hruns => ?_⟩
  have hattempts := attempts_run h hruns
  obtain ⟨message, program, final, hlatest, hrun, hshared, hprogram, hreturns⟩ :=
    @run_after_flush settings pool i request next hruns hattempts
  rw [← Returned.iff_returns hprogram] at hreturns
  constructor
  · intro hcovered final' response hrun' hreturned
    obtain rfl := Option.some.inj (hrun.symm.trans hrun')
    obtain ⟨message', hproduced, hlatest'⟩ := hholds.known (sound settings) hruns rfl
    obtain rfl := Option.some.inj (hlatest.symm.trans hlatest')
    have hflushed : Flushed request message pool.shared := by
      refine ⟨hproduced, hcovered.imp id ?_⟩
      rintro ⟨message', hlatest', hreported⟩
      obtain rfl := Option.some.inj (hlatest.symm.trans hlatest')
      exact hreported
    rw [hshared]
    exact hflushed.acknowledged (hreturns.mp ⟨response, hreturned⟩)
  · intro hall
    by_cases herrors : (pool.shared.messages[message]?).elim [] Message.deliveryError = []
    · obtain ⟨response, hreturned⟩ := hreturns.mpr herrors
      exact Or.inl (hshared ▸ hall final response hrun hreturned)
    · exact Or.inr ⟨message, hlatest, reported_of_deliveryError herrors⟩

end Claim

/-- A view, posted to a service with the default settings. -/
def view : MovieEvent :=
  ⟨1, "u", "m", .viewStarted, 0, .tv, "s", some 0, none, 1⟩

/-- The steps of one attempt, during whose `flush` something happens. -/
def publishing (during : List (Event Request Choice Change)) (flush : Choice) :
    List (Event Request Choice Change) :=
  [.start (.createEvent view), .step 0 .completes, .step 0 .completes] ++ during ++
    [.step 0 flush, .step 0 .completes, .step 0 .completes]

/-- A view that is delivered, and a second one that waits for its `flush`. -/
def twoViews : List (Event Request Choice Change) :=
  publishing [.outside (.acknowledge 0), .outside (.callback 0)] .completes ++
    [.start (.generate view), .step 1 .completes, .step 1 .completes]

theorem publish_delivered_sample : ∃ pool,
    (service ⟨"movie-events", "user_id"⟩).run (Pool.initial ⟨1, [], fun _ => none⟩) twoViews =
        some pool ∧
      pool.Answered 0 (.createEvent view) (.ok (.published 1 "movie-events" "u")) ∧
      Acknowledged view pool.shared ∧
      ∀ next, pool.Runs 1 (.generate view) (.step .flush next) →
        (Covered (.generate view) 1 pool.shared ↔ ∀ final response,
          (service ⟨"movie-events", "user_id"⟩).run pool [.step 1 .timesOut, .step 1 .completes] =
              some final →
            Returned final 1 (.generate view) response → Acknowledged view final.shared) := by
  obtain ⟨pool, hrun, hanswer⟩ := Service.exists_run (fun pool : ProducerPool =>
      pool.answer? 0 = some (.createEvent view, .ok (.published 1 "movie-events" "u")))
    (show (((service ⟨"movie-events", "user_id"⟩).run (Pool.initial ⟨1, [], fun _ => none⟩)
      twoViews).any _) = true by decide +kernel)
  have hanswered := Service.answered_of_answer? hanswer
  obtain ⟨hdelivered, hflush⟩ := publish_delivered hrun (by decide +kernel)
  exact ⟨pool, hrun, hanswered, hdelivered 0 (.createEvent view) _ ⟨rfl, Or.inl hanswered⟩,
    hflush 1 (.generate view)⟩

/-- The broker does not answer within the ten seconds of `flush`. -/
theorem publish_undelivered : ∃ pool,
    (service ⟨"movie-events", "user_id"⟩).run (Pool.initial ⟨1, [], fun _ => none⟩)
      (publishing [] .timesOut) = some pool ∧
    pool.Answered 0 (.createEvent view) (.ok (.published 1 "movie-events" "u")) ∧
    ¬ Acknowledged view pool.shared := by
  obtain ⟨pool, hrun, hanswer, hmessages⟩ := Service.exists_run (fun pool : ProducerPool =>
      pool.answer? 0 = some (.createEvent view, .ok (.published 1 "movie-events" "u")) ∧
        (pool.shared.messages.all fun message => !message.acked) = true)
    (show (((service ⟨"movie-events", "user_id"⟩).run (Pool.initial ⟨1, [], fun _ => none⟩)
      (publishing [] .timesOut)).any _) = true by decide +kernel)
  refine ⟨pool, hrun, Service.answered_of_answer? hanswer, ?_⟩
  rintro ⟨message, hmem, _, hacked⟩
  have hnone := List.all_eq_true.mp hmessages message hmem
  rw [hacked] at hnone
  cases hnone

end SoaHomework.MovieProducer
