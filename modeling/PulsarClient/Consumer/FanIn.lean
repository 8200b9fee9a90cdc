/-
  A `MultiTopicConsumer` OVER ITS ENGINES — many subscriptions, one stream.

  `MultiTopic` takes what the consumers of the topics answer in the rotation as given.  Here they are the
  `TopicConsumer`s of `Consumer.Engine`, each with its engine, its channel and its run; the rotation polls
  them, refreshes create and replace them, errors remove them, and an ack goes to the one that holds the
  topic at that time.

  1. THE PROGRAM — `answer`, the rotation with its polls (`Turns`), `pollNewConsumers`, `rotate`, `ack`.
     The consumers are numbered in the order in which they come; `current` is a topic's last.

  2. `Inv` — who holds a topic is there, not dropped, and the last of its name; what the stream has
     yielded is, consumer by consumer, what has been read of it.

  3. `yields_in_order` — so of each topic the stream yields, in order and byte by byte, what has come in
     for its consumers, one consumer after another, and nothing of it is passed over.

  4. `acks_own_topic` — and what is acknowledged on a topic's subscription was yielded of that topic.
-/
import PulsarClient.Consumer.Deadlock
import PulsarClient.Consumer.Handout
import PulsarClient.Consumer.LetterOrder
import PulsarClient.Consumer.MultiTopic
import PulsarClient.Lib.Members

namespace PulsarClient.MultiTopic.FanIn

open Runs Proto

/-! ## The program -/

/-- A message, as a `TopicConsumer` hands it over. -/
abbrev Msg := MessageIdData × Payload

/-- A `TopicConsumer` with the engine it has spawned. -/
abbrev Engine (c : String → Consumer.Config) :=
  Member (fun topic => Consumer.consumer (c topic))
    fun topic => ({ remainingMessages := (c topic).batchSize } : Consumer.State)

variable {c : String → Consumer.Config}

/-- `TopicConsumer::poll_next`: the channel has a message, an error, an end, or nothing yet. -/
def answer (now : Nat) (e : Engine c) : Item Msg :=
  if (e.act .read).isSome then
    match e.state.messages with
    | .Ok messageId payload :: _ => .Message now (messageId, payload)
    | _ => .Failed
  else if e.state.messages = [] ∧ e.state.pc = .gone then .Ended
  else .Pending

/-- The message in an answer, with the number of the consumer. -/
def yield (n : Nat) : Item Msg → List (Nat × Msg)
  | .Message _ msg => [(n, msg)]
  | _ => []

/-- The rotation, with the consumers it polls. -/
structure Turns (c : String → Consumer.Config) where
  rotation : Rotation Msg
  engines : List (Engine c)
  yields : List (Nat × Msg)

namespace Turns

/-- Whose turn it is. -/
def next (current : String → Nat) (l : Turns c) : Option (Nat × Engine c) :=
  match l.rotation.existingTopics with
  | [] => none
  | topic :: _ =>
    if topic ∈ l.rotation.consumers then (l.engines[current topic]?).map fun e => (current topic, e)
    else none

/-- What the rotation meets. -/
def item (now : Nat) (current : String → Nat) (l : Turns c) : Item Msg :=
  match l.next current with
  | none => .Pending
  | some (_, e) => answer now e

/-- One turn of the loop. -/
def turn (now : Nat) (current : String → Nat) (l : Turns c) : Turns c :=
  match l.next current with
  | none => { l with rotation := l.rotation.turn .Pending }
  | some (n, e) =>
    { rotation := l.rotation.turn (answer now e)
      engines := Member.actAt l.engines n .read
      yields := l.yields ++ yield n (answer now e) }

/-- `for _ in 0..n` -/
def loop (now : Nat) (current : String → Nat) : Nat → Turns c → Turns c
  | 0, l => l
  | n + 1, l => if l.rotation.result.isSome then l else loop now current n (l.turn now current)

end Turns

structure State (c : String → Consumer.Config) where
  multi : MultiTopicConsumer
  /-- every consumer that was ever held, the oldest first -/
  engines : List (Engine c)
  /-- the number of a topic's last consumer -/
  current : String → Nat
  /-- what the stream has yielded, and the consumer it was read of -/
  yields : List (Nat × Msg)
  /-- the calls of `ack` and `cumulative_ack` -/
  calls : List (String × MessageIdData × Bool)

namespace State

/-- `self.consumers.get_mut(topic)` -/
def tell (s : State c) (topic : String) (a : Consumer.Action) : List (Engine c) :=
  if topic ∈ s.multi.consumers then Member.actAt s.engines (s.current topic) a else s.engines

/-- The body of `add_consumers`: a consumer that is overwritten is dropped. -/
def addConsumer (s : State c) (consumer : TopicConsumer) : State c :=
  { s with
    multi := s.multi.addConsumer consumer
    engines := s.tell consumer.topic .dropConsumer ++ [.new consumer.topic]
    current := Function.update s.current consumer.topic s.engines.length }

/-- `new_consumers` taken and polled. -/
def pollNewConsumers (s : State c) (update : Option Answers) : State c :=
  match s.multi.newConsumers, update with
  | some u, some a =>
    match u.run a with
    | some consumers =>
      consumers.foldl addConsumer { s with multi := { s.multi with newConsumers := none } }
    | none => { s with multi := { s.multi with newConsumers := none } }
  | _, _ => s

/-- The locals at the start of the rotation. -/
def turns (s : State c) : Turns c where
  rotation :=
    { existingTopics := s.multi.existingTopics, consumers := s.multi.consumers, topicsToRemove := [],
      result := none }
  engines := s.engines
  yields := s.yields

/-- The rotation over `existing_topics`; the consumers that have failed are dropped. -/
def rotate (s : State c) (now : Nat) : State c :=
  let l := s.turns.loop now s.current s.multi.existingTopics.length
  { s with
    multi :=
      { s.multi with
        existingTopics := l.rotation.existingTopics
        consumers := l.rotation.consumers }.removeConsumers l.rotation.topicsToRemove
    engines := l.rotation.topicsToRemove.foldl
      (fun engines topic => Member.actAt engines (s.current topic) .dropConsumer) l.engines
    yields := l.yields }

/-- Nothing that borrows the consumer waits for a connection. -/
def idle (s : State c) : Bool := s.engines.all fun e => e.state.waiting.isNone

end State

inductive Label where
  /-- an engine, what it works with, or a `connection()` of its consumer -/
  | engine (n : Nat) (a : Consumer.Action)
  /-- `poll_next`, in three parts -/
  | update (answer : Option Answers)
  | tick
  | rotate (now : Nat)
  | ack (topic : String) (messageId : MessageIdData) (cumulative : Bool)
  | nack (topic : String) (messageId : MessageIdData)

/-- What the application does with a `TopicConsumer` is done by the `MultiTopicConsumer`. -/
def byApplication : Consumer.Action → Bool
  | .read => true
  | .ack _ _ => true
  | .nack _ => true
  | .dropConsumer => true
  | _ => false

def step (s : State c) : Label → Option (State c)
  | .engine n a =>
    if byApplication a = false ∧ (s.engines[n]?).any (fun e => (e.act a).isSome) then
      some { s with engines := Member.actAt s.engines n a }
    else none
  | .update answer => if s.idle then some (s.pollNewConsumers answer) else none
  | .tick => some { s with multi := s.multi.updateTopics }
  | .rotate now => if s.idle then some (s.rotate now) else none
  -- without a consumer of the topic: "no consumer for topic"
  | .ack topic messageId cumulative =>
    some { s with
      engines := s.tell topic (.ack messageId cumulative)
      calls := s.calls ++ [(topic, messageId, cumulative)] }
  | .nack topic messageId => some { s with engines := s.tell topic (.nack messageId) }

/-- What `build` returns, with an engine for each consumer. -/
def start (c : String → Consumer.Config) (multi : MultiTopicConsumer) : State c where
  multi
  engines := multi.consumers.keys.map .new
  current topic := multi.consumers.keys.idxOf topic
  yields := []
  calls := []

/-- A multi-topic consumer of the builder `b` and its engines. -/
def fanIn (c : String → Consumer.Config) (b : ConsumerBuilder) : Sys (State c) Label where
  init s := ∃ multi, (MultiTopic.consumer Msg b).init multi ∧ s = start c multi
  step := step

/-! ## The rotation below -/

section

variable {s : State c} {now : Nat}

theorem Turns.rotation_turn (current : String → Nat) (l : Turns c) :
    (l.turn now current).rotation = l.rotation.turn (l.item now current) := by
  unfold Turns.turn Turns.item
  split <;> rfl

/-- The loop is that of `MultiTopic`, with what the consumers answer. -/
theorem Turns.rotation_loop (current : String → Nat) (l : Turns c) (n i : Nat) :
    (((Turns.turn now current)^[i] l).loop now current n).rotation =
      Rotation.loop (fun j => ((Turns.turn now current)^[j] l).item now current) n i
        ((Turns.turn now current)^[i] l).rotation := by
  induction n generalizing i with
  | zero => rfl
  | succ n ih =>
    unfold Turns.loop Rotation.loop
    split
    · rfl
    · rw [← Function.iterate_succ_apply' (Turns.turn now current), ih,
        Function.iterate_succ_apply' (Turns.turn now current), Turns.rotation_turn]

theorem multi_rotate (s : State c) (now : Nat) :
    ∃ items : Nat → Item Msg, (s.rotate now).multi = (s.multi.rotate items).1 := by
  refine ⟨fun j => ((Turns.turn now s.current)^[j] s.turns).item now s.current, ?_⟩
  have hloop := @Turns.rotation_loop c now s.current s.turns s.multi.existingTopics.length 0
  unfold State.rotate MultiTopicConsumer.rotate
  simp only
  rw [Function.iterate_zero_apply] at hloop
  rw [hloop]
  rfl

theorem multi_foldl_addConsumer (s : State c) (consumers : List TopicConsumer) :
    (consumers.foldl State.addConsumer s).multi = s.multi.addConsumers consumers := by
  induction consumers generalizing s with
  | nil => rfl
  | cons consumer consumers ih => exact ih (s.addConsumer consumer)

theorem multi_pollNewConsumers (s : State c) (update : Option Answers) :
    (s.pollNewConsumers update).multi = s.multi.pollNewConsumers update := by
  unfold State.pollNewConsumers MultiTopicConsumer.pollNewConsumers
  cases hnew : s.multi.newConsumers with
  | none => rfl
  | some u =>
    cases update with
    | none => rfl
    | some a =>
      cases hrun : u.run a with
      | none => simp only [hrun]
      | some consumers =>
        simp only [hrun]
        exact multi_foldl_addConsumer _ consumers

/-- **The step lemma of the refinement.** -/
theorem multi_step {a : Label} {s' : State c} (hs : step s a = some s') :
    s'.multi = s.multi ∨ ∃ act : Action Msg, s'.multi = s.multi.act act := by
  cases a with
  | engine n a =>
    simp only [step, Option.ite_none_right_eq_some, Option.some.injEq] at hs
    obtain ⟨-, rfl⟩ := hs
    exact Or.inl rfl
  | update answer =>
    simp only [step, Option.ite_none_right_eq_some, Option.some.injEq] at hs
    obtain ⟨-, rfl⟩ := hs
    exact Or.inr ⟨.update answer, multi_pollNewConsumers s answer⟩
  | tick =>
    obtain rfl := Option.some.inj hs
    exact Or.inr ⟨.tick, rfl⟩
  | rotate now =>
    simp only [step, Option.ite_none_right_eq_some, Option.some.injEq] at hs
    obtain ⟨-, rfl⟩ := hs
    obtain ⟨items, h⟩ := multi_rotate s now
    exact Or.inr ⟨.rotate items, h⟩
  | ack topic messageId cumulative =>
    obtain rfl := Option.some.inj hs
    exact Or.inl rfl
  | nack topic messageId =>
    obtain rfl := Option.some.inj hs
    exact Or.inl rfl

/-- **The refinement**: with its engines, a consumer does what `MultiTopic` says of it. -/
theorem reach_multi {ok : State c → Label → Prop} {b : ConsumerBuilder}
    (h : (fanIn c b).ReachIf ok s) : (MultiTopic.consumer Msg b).Reach s.multi := by
  refine Sys.ReachIf.inv (fun s => (MultiTopic.consumer Msg b).Reach s.multi) ?_ ?_ h
  · rintro s ⟨multi, hinit, rfl⟩
    exact .init hinit
  · intro s a s' hreach _ hs
    rcases multi_step hs with h | ⟨act, h⟩
    · rw [h]
      exact hreach
    · exact .step hreach trivial (congrArg some h.symm)

end

/-! ## The invariant -/

/-- What has been read of a consumer. -/
def read (e : Engine c) : List Msg := e.outputs fun _ => Consumer.reads

/-- What has come in for it. -/
def brought (e : Engine c) : List Msg := e.outputs fun topic _ a => Consumer.brings (c topic) a

/-- The messages that the stream has yielded of the `n`-th consumer. -/
def yieldedBy (yields : List (Nat × Msg)) (n : Nat) : List Msg :=
  (yields.filter fun y => y.1 = n).map Prod.snd

/-- Of the consumers that are held for the topics `holds`. -/
structure Inv (holds : String → Prop) (current : String → Nat) (engines : List (Engine c))
    (yields : List (Nat × Msg)) (calls : List (String × MessageIdData × Bool)) : Prop where
  /-- who holds a topic has its name and is not dropped -/
  held : ∀ topic, holds topic → ∃ e : Engine c, engines[current topic]? = some e ∧ e.name = topic ∧
    .dropConsumer ∉ e.history
  /-- … and is the last of that name -/
  latest : ∀ (n : Nat) (e : Engine c), engines[n]? = some e → n ≤ current e.name
  given : ∀ (n : Nat) (e : Engine c), engines[n]? = some e → read e = yieldedBy yields n
  known : ∀ y ∈ yields, ∃ e : Engine c, engines[y.1]? = some e
  /-- a topic's consumers yield one after another -/
  inOrder : yields.Pairwise fun y z => ∀ e e' : Engine c, engines[y.1]? = some e → engines[z.1]? = some e' →
    e.name = e'.name → y.1 ≤ z.1
  asked : ∀ (n : Nat) (e : Engine c) messageId cumulative, engines[n]? = some e →
    (messageId, cumulative) ∈ e.state.acked → (e.name, messageId, cumulative) ∈ calls

section

variable {holds holds' : String → Prop} {current : String → Nat} {engines : List (Engine c)}
  {yields : List (Nat × Msg)} {calls calls' : List (String × MessageIdData × Bool)}

theorem acked_step {cfg : Consumer.Config} {s s' : Consumer.State} {a : Consumer.Action}
    (hs : Consumer.step cfg s a = some s') :
    s'.acked = s.acked ∨ ∃ messageId cumulative, a = .ack messageId cumulative ∧
      s'.acked = s.acked ++ [(messageId, cumulative)] := by
  cases Consumer.ackStep hs with
  | quiet h => exact Or.inl h.acked
  | asked => exact Or.inr ⟨_, _, rfl, rfl⟩
  | taken | published | sent => exact Or.inl rfl

/-- What a step of one of the consumers leaves. -/
theorem Inv.act (h : Inv holds current engines yields calls) {n : Nat} {a : Consumer.Action}
    {more : List (Nat × Msg)}
    (hholds : ∀ topic, holds' topic → holds topic ∧ (a = .dropConsumer → current topic ≠ n))
    (hgiven : ∀ e : Engine c, engines[n]? = some e → read (e.tryAct a) = read e ++ more.map Prod.snd)
    (hmore : ∀ y ∈ more, y.1 = n ∧ ∃ e : Engine c, engines[n]? = some e ∧ current e.name = n)
    (hcalls : ∀ y, y ∈ calls → y ∈ calls')
    (hasked : ∀ (e : Engine c) messageId cumulative, engines[n]? = some e → a = .ack messageId cumulative →
      (e.name, messageId, cumulative) ∈ calls') :
    Inv holds' current (Member.actAt engines n a) (yields ++ more) calls' := by
  have hsame : ∀ {k} {e' : Engine c}, (Member.actAt engines n a)[k]? = some e' →
      ∃ e : Engine c, engines[k]? = some e ∧ e'.name = e.name := fun he' => by
    obtain ⟨e, he, hname, -⟩ := Member.of_actAt he'
    exact ⟨e, he, hname⟩
  refine ⟨fun topic htopic => ?_, fun k e' he' => ?_, fun k e' he' => ?_, fun y hy => ?_, ?_,
    fun k e' messageId cumulative he' hacked => ?_⟩
  · obtain ⟨hhold, hdrop⟩ := hholds topic htopic
    obtain ⟨e, he, hname, hhistory⟩ := h.held topic hhold
    refine ⟨if n = current topic then e.tryAct a else e, ?_, ?_, ?_⟩
    · rw [Member.getElem?_actAt, he]
      rfl
    · split
      · rw [Member.name_tryAct, hname]
      · exact hname
    · split
      · rename_i hn
        rcases e.tryAct_cases a with hact | ⟨-, hact⟩
        · rw [(Member.act_some hact).2.1, List.mem_append, List.mem_singleton]
          rintro (hmem | hmem)
          · exact hhistory hmem
          · exact hdrop hmem.symm hn.symm
        · rw [hact]
          exact hhistory
      · exact hhistory
  · obtain ⟨e, he, hname⟩ := hsame he'
    rw [hname]
    exact h.latest k e he
  · obtain ⟨e, he, -, heq⟩ := Member.of_actAt he'
    have hyield : yieldedBy (yields ++ more) k =
        yieldedBy yields k ++ (more.filter fun y => y.1 = k).map Prod.snd := by
      unfold yieldedBy
      rw [List.filter_append, List.map_append]
    rw [hyield, heq, ← h.given k e he]
    split
    · rename_i hn
      obtain rfl := hn
      rw [hgiven e he, List.filter_eq_self.mpr fun y hy => decide_eq_true (hmore y hy).1]
    · rename_i hn
      rw [List.filter_eq_nil_iff.mpr, List.map_nil, List.append_nil]
      intro y hy hk
      exact hn ((hmore y hy).1.symm.trans (of_decide_eq_true hk))
  · have hthere : ∃ e : Engine c, engines[y.1]? = some e := by
      rcases List.mem_append.mp hy with hy | hy
      · exact h.known y hy
      · obtain ⟨hn, e, he, -⟩ := hmore y hy
        exact ⟨e, by rw [hn]; exact he⟩
    obtain ⟨e, he⟩ := hthere
    exact ⟨_, by rw [Member.getElem?_actAt, he]; rfl⟩
  · rw [List.pairwise_append]
    refine ⟨?_, ?_, ?_⟩
    · refine h.inOrder.imp fun hyz e e' he he' hname => ?_
      obtain ⟨d, hd, hdname⟩ := hsame he
      obtain ⟨d', hd', hdname'⟩ := hsame he'
      exact hyz d d' hd hd' (by rw [← hdname, ← hdname', hname])
    · refine List.pairwise_of_forall_mem_list fun y hy z hz _ _ _ _ _ => ?_
      rw [(hmore y hy).1, (hmore z hz).1]
    · intro y hy z hz e e' he he' hname
      obtain ⟨hn, d', hd', hcurrent⟩ := hmore z hz
      obtain ⟨d, hd, hdname⟩ := hsame he
      obtain ⟨f, hf, hfname⟩ := hsame he'
      rw [hn] at hf ⊢
      obtain rfl := Option.some.inj (hd'.symm.trans hf)
      have hle := h.latest y.1 d hd
      rw [← hdname, hname, hfname, hcurrent] at hle
      exact hle
  · obtain ⟨e, he, hname, heq⟩ := Member.of_actAt he'
    rw [hname]
    by_cases hn : n = k
    · obtain rfl := hn
      rw [if_pos rfl] at heq
      rcases e.tryAct_cases a with hact | ⟨-, hact⟩
      · rcases acked_step (Member.act_some hact).2.2 with hsame | ⟨id, cum, ha, hsame⟩
        · rw [heq, hsame] at hacked
          exact hcalls _ (h.asked n e messageId cumulative he hacked)
        · rw [heq, hsame, List.mem_append, List.mem_singleton] at hacked
          rcases hacked with hacked | hacked
          · exact hcalls _ (h.asked n e messageId cumulative he hacked)
          · obtain ⟨rfl, rfl⟩ := Prod.mk.inj hacked
            exact hasked e messageId cumulative he ha
      · rw [heq, hact] at hacked
        exact hcalls _ (h.asked n e messageId cumulative he hacked)
    · rw [if_neg hn] at heq
      rw [heq] at hacked
      exact hcalls _ (h.asked k e messageId cumulative he hacked)

/-- Fewer topics are held. -/
theorem Inv.mono (h : Inv holds current engines yields calls)
    (hholds : ∀ topic, holds' topic → holds topic) : Inv holds' current engines yields calls :=
  ⟨fun topic htopic => h.held topic (hholds topic htopic), h.latest, h.given, h.known, h.inOrder,
    h.asked⟩

theorem read_tryAct (e : Engine c) {a : Consumer.Action} (ha : a ≠ .read) :
    read (e.tryAct a) = read e := by
  refine Member.outputs_tryAct _ ?_
  cases a with
  | read => exact absurd rfl ha
  | _ => rfl

/-- … and a step that hands over nothing. -/
theorem Inv.quiet (h : Inv holds current engines yields calls) {n : Nat} {a : Consumer.Action}
    (ha : a ≠ .read)
    (hholds : ∀ topic, holds' topic → holds topic ∧ (a = .dropConsumer → current topic ≠ n))
    (hcalls : ∀ y, y ∈ calls → y ∈ calls')
    (hasked : ∀ (e : Engine c) messageId cumulative, engines[n]? = some e →
      a = .ack messageId cumulative → (e.name, messageId, cumulative) ∈ calls') :
    Inv holds' current (Member.actAt engines n a) yields calls' := by
  have hgiven : ∀ e : Engine c, engines[n]? = some e →
      read (e.tryAct a) = read e ++ ([] : List (Nat × Msg)).map Prod.snd := fun e _ => by
    rw [read_tryAct e ha]
    exact (List.append_nil _).symm
  have hact := h.act hholds hgiven (fun y hy => absurd hy List.not_mem_nil) hcalls hasked
  rw [List.append_nil] at hact
  exact hact

/-- A poll of a consumer reads what it yields. -/
theorem read_poll (now n : Nat) (e : Engine c) :
    read (e.tryAct .read) = read e ++ (yield n (answer now e)).map Prod.snd := by
  rcases e.tryAct_cases .read with hact | ⟨hact, hsame⟩
  · unfold read
    rw [Member.outputs_act _ hact]
    unfold answer
    rw [hact, if_pos (show (some (e.tryAct .read)).isSome = true from rfl)]
    show _ ++ (e.state.messages.head?.bind Consumer.Delivery.item?).toList = _
    cases e.state.messages with
    | nil => rfl
    | cons d rest => cases d <;> rfl
  · have hnone : yield n (answer now e) = [] := by
      unfold answer
      rw [hact, if_neg (by exact Bool.false_ne_true)]
      split <;> rfl
    rw [hsame, hnone]
    exact (List.append_nil _).symm

theorem mem_yield {n : Nat} {item : Item Msg} {y : Nat × Msg} (h : y ∈ yield n item) : y.1 = n := by
  cases item with
  | Message now msg =>
    rw [List.mem_singleton.mp h]
  | Pending | Ended | Failed => exact absurd h List.not_mem_nil

/-- Whose turn it is, holds the topic. -/
theorem next_some {l : Turns c} (h : Inv (· ∈ l.rotation.consumers) current l.engines yields calls)
    {n : Nat} {e : Engine c} (hnext : l.next current = some (n, e)) :
    l.engines[n]? = some e ∧ current e.name = n := by
  unfold Turns.next at hnext
  split at hnext
  · cases hnext
  · rename_i topic rest _
    split at hnext
    · rename_i hmem
      obtain ⟨e', he', heq⟩ := Option.map_eq_some_iff.mp hnext
      obtain ⟨rfl, rfl⟩ := Prod.mk.inj heq
      obtain ⟨d, hd, hname, -⟩ := h.held topic hmem
      obtain rfl := Option.some.inj (he'.symm.trans hd)
      exact ⟨he', by rw [hname]⟩
    · cases hnext

/-- What is known in the rotation. -/
structure Turning (current : String → Nat) (calls : List (String × MessageIdData × Bool))
    (l : Turns c) : Prop where
  inv : Inv (· ∈ l.rotation.consumers) current l.engines l.yields calls
  failed : ∀ topic ∈ l.rotation.topicsToRemove, topic ∈ l.rotation.consumers

theorem topicsToRemove_turn (r : Rotation Msg) (item : Item Msg)
    (h : ∀ topic ∈ r.topicsToRemove, topic ∈ r.consumers) :
    ∀ topic ∈ (r.turn item).topicsToRemove, topic ∈ (r.turn item).consumers := by
  intro topic htopic
  rw [Rotation.mem_turn]
  unfold Rotation.turn at htopic
  cases hexisting : r.existingTopics with
  | nil =>
    rw [hexisting] at htopic
    exact h topic htopic
  | cons first rest =>
    rw [hexisting] at htopic
    change topic ∈ (r.polled first item).topicsToRemove at htopic
    unfold Rotation.polled at htopic
    have hlast : ∀ {c : TopicConsumer}, r.consumers[first]? = some c →
        topic ∈ r.topicsToRemove ++ [first] → topic ∈ r.consumers := by
      intro c hc hmem
      rcases List.mem_append.mp hmem with hmem | hmem
      · exact h topic hmem
      · rw [List.mem_singleton.mp hmem, ← Std.TreeMap.isSome_getElem?_iff_mem, hc]
        rfl
    split at htopic
    · exact h topic htopic
    · exact h topic htopic
    · exact h topic htopic
    · rename_i hc
      exact hlast hc htopic
    · rename_i hc
      exact hlast hc htopic

/-- **The step lemma of the rotation.** -/
theorem Turning.turn {l : Turns c} (h : Turning current calls l) (now : Nat) :
    Turning current calls (l.turn now current) := by
  constructor
  · unfold Turns.turn
    cases hnext : l.next current with
    | none => exact h.inv.mono fun topic htopic => (Rotation.mem_turn _ _ _).mp htopic
    | some next =>
      obtain ⟨n, e⟩ := next
      obtain ⟨he, hcurrent⟩ := next_some h.inv hnext
      refine h.inv.act (fun topic htopic => ⟨(Rotation.mem_turn _ _ _).mp htopic, Consumer.Action.noConfusion⟩)
        (fun e' he' => ?_) (fun y hy => ⟨mem_yield hy, e, he, hcurrent⟩) (fun _ hy => hy)
        fun _ _ _ _ => Consumer.Action.noConfusion
      obtain rfl := Option.some.inj (he.symm.trans he')
      exact read_poll now n e
  · rw [Turns.rotation_turn]
    exact topicsToRemove_turn _ _ h.failed

theorem Turning.loop {l : Turns c} (h : Turning current calls l) (now n : Nat) :
    Turning current calls (l.loop now current n) := by
  induction n generalizing l with
  | zero => exact h
  | succ n ih =>
    unfold Turns.loop
    split
    · exact h
    · exact ih (h.turn now)

/-- The consumers that have failed are dropped. -/
theorem Inv.drops {failed all : List String} (h : Inv holds current engines yields calls)
    (hsub : failed ⊆ all) (hholds : ∀ topic, holds topic → topic ∉ all)
    (hnames : ∀ topic ∈ failed, ∃ e : Engine c, engines[current topic]? = some e ∧ e.name = topic) :
    Inv holds current
      (failed.foldl (fun engines topic => Member.actAt engines (current topic) .dropConsumer) engines)
      yields calls := by
  induction failed generalizing engines with
  | nil => exact h
  | cons topic failed ih =>
    refine ih (h.quiet Consumer.Action.noConfusion (fun other hother => ⟨hother, fun _ hsame => ?_⟩)
      (fun _ hy => hy) fun _ _ _ _ => Consumer.Action.noConfusion)
      (fun _ ht => hsub (List.mem_cons_of_mem topic ht)) fun other hother => ?_
    · obtain ⟨e, he, hname⟩ := hnames topic List.mem_cons_self
      obtain ⟨e', he', hname', -⟩ := h.held other hother
      rw [hsame] at he'
      obtain rfl := Option.some.inj (he.symm.trans he')
      exact hholds other hother (hname'.symm.trans hname ▸ hsub List.mem_cons_self)
    · obtain ⟨e, he, hname⟩ := hnames other (List.mem_cons_of_mem topic hother)
      refine ⟨_, by rw [Member.getElem?_actAt, he]; rfl, ?_⟩
      split
      · rw [Member.name_tryAct, hname]
      · exact hname

/-- A consumer is added, for a topic that is held no more. -/
theorem Inv.push (h : Inv holds current engines yields calls) {topic : String}
    (hholds : ∀ other, holds' other → other ≠ topic → holds other) :
    Inv holds' (Function.update current topic engines.length) (engines ++ [.new topic]) yields
      calls := by
  have hlast : (engines ++ [(.new topic : Engine c)])[engines.length]? = some (.new topic) :=
    List.getElem?_concat_length
  have hold : ∀ {n : Nat} {e : Engine c}, engines[n]? = some e →
      (engines ++ [(.new topic : Engine c)])[n]? = some e := by
    intro n e he
    rw [List.getElem?_append_left (List.getElem?_eq_some_iff.mp he).1, he]
  have hcases : ∀ {n : Nat} {e : Engine c}, (engines ++ [(.new topic : Engine c)])[n]? = some e →
      engines[n]? = some e ∨ n = engines.length ∧ e = .new topic := by
    intro n e he
    rcases Nat.lt_trichotomy n engines.length with hlt | rfl | hlt
    · rw [List.getElem?_append_left hlt] at he
      exact Or.inl he
    · exact Or.inr ⟨rfl, (Option.some.inj (hlast.symm.trans he)).symm⟩
    · rw [List.getElem?_eq_none (by rw [List.length_append, List.length_singleton]; exact hlt)] at he
      cases he
  have hbelow : ∀ y ∈ yields, y.1 < engines.length := fun y hy => by
    obtain ⟨e, he⟩ := h.known y hy
    exact (List.getElem?_eq_some_iff.mp he).1
  refine ⟨fun other hother => ?_, fun n e he => ?_, fun n e he => ?_, fun y hy => ?_, ?_,
    fun n e messageId cumulative he hacked => ?_⟩
  · by_cases hne : other = topic
    · refine ⟨.new topic, ?_, hne.symm, List.not_mem_nil⟩
      rw [hne, Function.update_self]
      exact hlast
    · obtain ⟨e, he, hname, hhistory⟩ := h.held other (hholds other hother hne)
      refine ⟨e, ?_, hname, hhistory⟩
      rw [Function.update_of_ne hne]
      exact hold he
  · rcases hcases he with he | ⟨rfl, rfl⟩
    · by_cases hname : e.name = topic
      · rw [hname, Function.update_self]
        exact Nat.le_of_lt (List.getElem?_eq_some_iff.mp he).1
      · rw [Function.update_of_ne hname]
        exact h.latest n e he
    · show engines.length ≤ Function.update current topic engines.length topic
      rw [Function.update_self]
  · rcases hcases he with he | ⟨rfl, rfl⟩
    · exact h.given n e he
    · unfold yieldedBy
      rw [List.filter_eq_nil_iff.mpr]
      · rfl
      · intro y hy heq
        exact Nat.ne_of_lt (hbelow y hy) (of_decide_eq_true heq)
  · obtain ⟨e, he⟩ := h.known y hy
    exact ⟨e, hold he⟩
  · refine h.inOrder.imp_of_mem fun hy hz hyz e e' he he' => ?_
    rw [List.getElem?_append_left (hbelow _ hy)] at he
    rw [List.getElem?_append_left (hbelow _ hz)] at he'
    exact hyz e e' he he'
  · rcases hcases he with he | ⟨rfl, rfl⟩
    · exact h.asked n e messageId cumulative he hacked
    · exact absurd hacked List.not_mem_nil

end

/-! ## A run -/

/-- … of a state. -/
def Sound (s : State c) : Prop := Inv (· ∈ s.multi.consumers) s.current s.engines s.yields s.calls

theorem sound_start (multi : MultiTopicConsumer) : Sound (start c multi) := by
  refine ⟨fun topic htopic => ?_, fun n e he => ?_, fun n e he => ?_, fun y hy => ?_, ?_,
    fun n e messageId cumulative he hacked => ?_⟩
  · refine ⟨.new topic, ?_, rfl, List.not_mem_nil⟩
    have hkey : topic ∈ multi.consumers.keys := Std.TreeMap.mem_keys.mpr htopic
    show (multi.consumers.keys.map _)[multi.consumers.keys.idxOf topic]? = _
    rw [List.getElem?_map, List.getElem?_idxOf hkey]
    rfl
  · obtain ⟨topic, htopic, rfl⟩ := Option.map_eq_some_iff.mp ((List.getElem?_map ..).symm.trans he)
    obtain ⟨hlt, rfl⟩ := List.getElem?_eq_some_iff.mp htopic
    exact Nat.le_of_eq (Std.TreeMap.nodup_keys.idxOf_getElem n hlt).symm
  · obtain ⟨topic, -, rfl⟩ := Option.map_eq_some_iff.mp ((List.getElem?_map ..).symm.trans he)
    rfl
  · exact absurd hy List.not_mem_nil
  · exact List.Pairwise.nil
  · obtain ⟨topic, -, rfl⟩ := Option.map_eq_some_iff.mp ((List.getElem?_map ..).symm.trans he)
    exact absurd hacked List.not_mem_nil

section

variable {s s' : State c}

theorem Sound.addConsumer (h : Sound s) (consumer : TopicConsumer) : Sound (s.addConsumer consumer) := by
  have hmem : ∀ topic, topic ∈ (s.multi.addConsumer consumer).consumers → topic ≠ consumer.topic →
      topic ∈ s.multi.consumers ∧ topic ≠ consumer.topic := by
    intro topic htopic hne
    rcases (MultiTopicConsumer.mem_addConsumers [consumer] s.multi topic).mp htopic with hold | hnew
    · exact ⟨hold, hne⟩
    · exact absurd (List.mem_singleton.mp hnew) hne
  have hdrop : Inv (fun topic => topic ∈ s.multi.consumers ∧ topic ≠ consumer.topic) s.current
      (s.tell consumer.topic .dropConsumer) s.yields s.calls := by
    unfold State.tell
    split
    · rename_i hheld
      refine h.quiet Consumer.Action.noConfusion (fun topic htopic => ⟨htopic.1, fun _ hsame => ?_⟩)
        (fun _ hy => hy) fun _ _ _ _ => Consumer.Action.noConfusion
      obtain ⟨e, he, hname, -⟩ := h.held topic htopic.1
      obtain ⟨e', he', hname', -⟩ := h.held consumer.topic hheld
      rw [hsame] at he
      obtain rfl := Option.some.inj (he.symm.trans he')
      exact htopic.2 (hname.symm.trans hname')
    · exact h.mono fun topic htopic => htopic.1
  have hlength : (s.tell consumer.topic .dropConsumer).length = s.engines.length := by
    unfold State.tell
    split
    · exact Member.length_actAt ..
    · rfl
  have hpush := hdrop.push hmem
  rw [hlength] at hpush
  exact hpush

theorem Sound.rotate (h : Sound s) (now : Nat) : Sound (s.rotate now) := by
  have hturns : Turning s.current s.calls s.turns := ⟨h, fun _ ht => absurd ht List.not_mem_nil⟩
  have hloop := hturns.loop now s.multi.existingTopics.length
  generalize hl : s.turns.loop now s.current s.multi.existingTopics.length = l at hloop
  have hmulti : ∀ topic, topic ∈ (s.rotate now).multi.consumers →
      topic ∈ l.rotation.consumers ∧ topic ∉ l.rotation.topicsToRemove := by
    intro topic htopic
    unfold State.rotate at htopic
    rw [hl] at htopic
    exact ((MultiTopicConsumer.foldl_removeConsumer _ _).2.2.2.2 topic).mp htopic
  have hdrops := Inv.drops (hloop.inv.mono fun _ => And.left)
    (List.Subset.refl l.rotation.topicsToRemove) (fun _ htopic => htopic.2) fun topic htopic => by
      obtain ⟨e, he, hname, -⟩ := hloop.inv.held topic (hloop.failed topic htopic)
      exact ⟨e, he, hname⟩
  have hsound := hdrops.mono hmulti
  unfold Sound State.rotate
  rw [hl]
  unfold State.rotate at hsound
  rw [hl] at hsound
  exact hsound

/-- The application is told of a message that it acknowledges. -/
theorem Sound.tell (h : Sound s) (topic : String) {a : Consumer.Action} (ha : a ≠ .read)
    (hdrop : a ≠ .dropConsumer) {calls : List (String × MessageIdData × Bool)} (hcalls : s.calls ⊆ calls)
    (hasked : ∀ messageId cumulative, a = .ack messageId cumulative →
      (topic, messageId, cumulative) ∈ calls) :
    Sound { s with engines := s.tell topic a, calls } := by
  unfold State.tell
  split
  · rename_i hheld
    refine h.quiet ha (fun topic htopic => ⟨htopic, fun hsame => absurd hsame hdrop⟩)
      (fun y hy => hcalls hy) fun e messageId cumulative he heq => ?_
    obtain ⟨e', he', hname, -⟩ := h.held topic hheld
    obtain rfl := Option.some.inj (he.symm.trans he')
    rw [hname]
    exact hasked messageId cumulative heq
  · exact ⟨h.held, h.latest, h.given, h.known, h.inOrder,
      fun n e messageId cumulative he hacked => hcalls (h.asked n e messageId cumulative he hacked)⟩

/-- **The step lemma.** -/
theorem Sound.step {a : Label} (h : Sound s) (hs : FanIn.step s a = some s') : Sound s' := by
  cases a with
  | engine n a =>
    simp only [FanIn.step, Option.ite_none_right_eq_some, Option.some.injEq] at hs
    obtain ⟨⟨ha, -⟩, rfl⟩ := hs
    have hne : ∀ {b : Consumer.Action}, byApplication b = true → a ≠ b := by
      rintro b hb rfl
      exact Bool.false_ne_true (ha.symm.trans hb)
    exact h.quiet (hne rfl) (fun topic htopic => ⟨htopic, fun hdrop => absurd hdrop (hne rfl)⟩)
      (fun _ hy => hy) fun _ _ _ _ hack => absurd hack (hne rfl)
  | update answer =>
    simp only [FanIn.step, Option.ite_none_right_eq_some, Option.some.injEq] at hs
    obtain ⟨-, rfl⟩ := hs
    have hfold : ∀ (consumers : List TopicConsumer) {s : State c}, Sound s →
        Sound (consumers.foldl State.addConsumer s) := by
      intro consumers
      induction consumers with
      | nil => exact fun h => h
      | cons consumer consumers ih => exact fun h => ih (h.addConsumer consumer)
    unfold State.pollNewConsumers
    split
    · split
      · exact hfold _ h
      · exact h
    · exact h
  | tick =>
    obtain rfl := Option.some.inj hs
    exact h
  | rotate now =>
    simp only [FanIn.step, Option.ite_none_right_eq_some, Option.some.injEq] at hs
    obtain ⟨-, rfl⟩ := hs
    exact h.rotate now
  | ack topic messageId cumulative =>
    obtain rfl := Option.some.inj hs
    refine h.tell topic Consumer.Action.noConfusion Consumer.Action.noConfusion
      (List.subset_append_left _ _) fun id cum heq => ?_
    obtain ⟨rfl, rfl⟩ := Consumer.Action.ack.inj heq
    exact List.mem_append_right _ (List.mem_singleton_self _)
  | nack topic messageId =>
    obtain rfl := Option.some.inj hs
    exact h.tell topic Consumer.Action.noConfusion Consumer.Action.noConfusion
      (List.Subset.refl _) fun _ _ => Consumer.Action.noConfusion

theorem sound_of_reach {ok : State c → Label → Prop} {b : ConsumerBuilder}
    (h : (fanIn c b).ReachIf ok s) : Sound s := by
  refine Sys.ReachIf.inv Sound ?_ ?_ h
  · rintro s ⟨multi, -, rfl⟩
    exact sound_start multi
  · exact fun s a s' h _ hs => h.step hs

end

/-! ## The main results -/

/-- What the stream has yielded of a topic. -/
def yieldedOf (s : State c) (topic : String) : List Msg :=
  (s.yields.filter fun y => (s.engines[y.1]?).any fun e => e.name = topic).map Prod.snd

/-- **A topic's messages are those read of its consumers, one consumer after another.** -/
theorem Sound.yieldedOf_eq {s : State c} (h : Sound s) (topic : String) :
    yieldedOf s topic = (s.engines.filter fun e => e.name = topic).flatMap read := by
  have hof : ∀ {y : Nat × Msg}, (s.engines[y.1]?).any (fun e => e.name = topic) = true →
      ∃ e : Engine c, s.engines[y.1]? = some e ∧ e.name = topic := by
    intro y hy
    obtain ⟨e, he, hname⟩ := (Option.any_eq_true _ _).mp hy
    exact ⟨e, he, of_decide_eq_true hname⟩
  have hsorted : (s.yields.filter fun y => (s.engines[y.1]?).any fun e => e.name = topic).Pairwise
      fun y z => y.1 ≤ z.1 := by
    refine (h.inOrder.filter _).imp_of_mem fun hy hz hyz => ?_
    obtain ⟨e, he, hname⟩ := hof (List.mem_filter.mp hy).2
    obtain ⟨e', he', hname'⟩ := hof (List.mem_filter.mp hz).2
    exact hyz e e' he he' (hname.trans hname'.symm)
  have hbelow : ∀ y ∈ s.yields.filter fun y => (s.engines[y.1]?).any fun e => e.name = topic,
      y.1 < s.engines.length := by
    intro y hy
    obtain ⟨e, he, -⟩ := hof (List.mem_filter.mp hy).2
    exact (List.getElem?_eq_some_iff.mp he).1
  unfold yieldedOf
  rw [Member.flatMap_filter, ← Member.flatMap_range, ← Member.flatMap_filter_eq hsorted hbelow,
    List.map_flatMap]
  refine List.flatMap_congr fun n hn => ?_
  obtain ⟨e, he⟩ : ∃ e : Engine c, s.engines[n]? = some e :=
    ⟨_, List.getElem?_eq_getElem (List.mem_range.mp hn)⟩
  rw [List.filter_filter, he, Option.map_some, Option.getD_some]
  split
  · rename_i hname
    rw [h.given n _ he]
    unfold yieldedBy
    congr 1
    refine List.filter_congr fun y _ => ?_
    by_cases hy : y.1 = n
    · rw [hy, he, Option.any_some, hname, Bool.and_true]
    · rw [decide_eq_false hy, Bool.false_and]
  · rename_i hname
    rw [List.filter_eq_nil_iff.mpr]
    · rfl
    · intro y _ hy
      obtain ⟨hn, hany⟩ := (Bool.and_eq_true _ _).mp hy
      rw [of_decide_eq_true hn, he, Option.any_some] at hany
      exact hname hany

/-- What a consumer was read, and what is left to read of it, came in for it. -/
theorem read_sublist (e : Engine c) :
    (read e ++ e.state.toRead (c e.name)).Sublist (brought e) := by
  have h := Consumer.reads_sublist e.run
  exact h

/-- … and all of it, of a plain consumer that is not dropped. -/
theorem read_conserved {e : Engine c} (hc : (c e.name).Plain) (hdrop : .dropConsumer ∉ e.history) :
    read e ++ e.state.toRead (c e.name) = brought e :=
  Consumer.reads_conserved hc ⟨rfl, fun _ _ _ => Consumer.Pc.noConfusion⟩ hdrop e.run

/-- **One stream of many subscriptions.**  In every run of a multi-topic consumer with its engines — what
    the brokers deliver and answer, refreshes, errors, replaced consumers, acks, the engines in any order
    — it is a multi-topic consumer of `MultiTopic`; of each topic it yields, in order and byte by byte,
    nothing but what has come in for the topic's consumers, one consumer after another; and of a topic it
    holds, a plain consumer has been read everything but what is to be read. -/
theorem yields_in_order (c : String → Consumer.Config) (b : ConsumerBuilder) (s : State c)
    (h : (fanIn c b).Reach s) :
    (MultiTopic.consumer Msg b).Reach s.multi ∧
      (∀ topic, (yieldedOf s topic).Sublist
        ((s.engines.filter fun e => e.name = topic).flatMap brought)) ∧
      ∀ topic ∈ s.multi.consumers, (c topic).Plain →
        ∃ e, s.engines[s.current topic]? = some e ∧ e.name = topic ∧
          yieldedBy s.yields (s.current topic) ++ e.state.toRead (c topic) = brought e := by
  have hsound := sound_of_reach h
  refine ⟨reach_multi h, fun topic => ?_, fun topic htopic hc => ?_⟩
  · rw [hsound.yieldedOf_eq]
    induction s.engines.filter fun e => e.name = topic with
    | nil => exact List.Sublist.refl []
    | cons e rest ih =>
      rw [List.flatMap_cons, List.flatMap_cons]
      exact ((List.sublist_append_left _ _).trans (read_sublist e)).append ih
  · obtain ⟨e, he, rfl, hhistory⟩ := hsound.held topic htopic
    refine ⟨e, he, rfl, ?_⟩
    rw [← hsound.given _ e he]
    exact read_conserved hc hhistory

/-- Two topics without partitions. -/
def both : ConsumerBuilder :=
  { topics := some ["a", "b"], topicRegex := none, «namespace» := none, topicRefresh := none }

def answered : Answers where
  getTopicsOfNamespace _ := none
  lookup _ := { number := some 0, found := fun _ => true, created := fun _ => true }
  created _ := true

/-- The engine of a consumer works on a single message. -/
def works (n entryId : Nat) : List Label :=
  [.arrive (some (Consumer.single entryId)), .top false, .flow none, .next, .item].map (.engine n)

theorem init_both : (fanIn (fun topic => { Consumer.plain 1 with topic }) both).init
    (start _ (both.multi [.new "a", .new "b"])) :=
  ⟨_, ⟨answered, answered, rfl⟩, rfl⟩

/-- The topics take turns, whoever was first. -/
theorem yields_in_order_both : ∃ s : State fun topic => { Consumer.plain 1 with topic },
    s.yields.map (fun y => (y.1, y.2.1.entryId)) = [(0, 3), (1, 7)] ∧
      (yieldedOf s "b").Sublist ((s.engines.filter fun e => e.name = "b").flatMap brought) := by
  obtain ⟨s, hs, hp⟩ := Sys.exists_reach_of_exec init_both
    (p := fun s => s.yields.map (fun y => (y.1, y.2.1.entryId)) == [(0, 3), (1, 7)])
    (works 1 7 ++ works 0 3 ++ [.rotate 5, .rotate 6]) (by decide +kernel)
  exact ⟨s, beq_iff_eq.mp hp, (yields_in_order _ both s hs).2.1 "b"⟩

theorem acksFollow_of_reach {cfg : Consumer.Config} {s : Consumer.State}
    (h : (Consumer.consumer cfg).Reach s) : Consumer.Letters.AcksFollow s := by
  refine (Sys.ReachIf.inv (fun s => Consumer.Pending s ∧ Consumer.Letters.AcksFollow s) ?_ ?_ h).2
  · rintro s rfl
    exact ⟨Consumer.pending_init _, fun _ _ hmem => absurd hmem List.not_mem_nil⟩
  · exact fun s a s' h _ hs => ⟨h.1.step hs, h.2.step h.1 hs⟩

/-- **No topic is acknowledged for another.**  In every run, an ack that the client has sent on the
    subscription of a consumer, held or replaced, was asked for with the name of its topic, or acknowledges
    a message that was dead-lettered there. -/
theorem acks_own_topic (c : String → Consumer.Config) (b : ConsumerBuilder) (s : State c) (n : Nat)
    (e : Engine c) (messageId : MessageIdData) (cumulative : Bool) (h : (fanIn c b).Reach s)
    (he : s.engines[n]? = some e) (hsent : .ack messageId cumulative ∈ e.state.sent) :
    (e.name, messageId, cumulative) ∈ s.calls ∨
      cumulative = false ∧ messageId ∈ e.state.deadLettered := by
  rcases acksFollow_of_reach (e.reach rfl) messageId cumulative hsent with hacked | hletter
  · exact Or.inl ((sound_of_reach h).asked n e messageId cumulative he hacked)
  · exact Or.inr hletter

/-- A message of the second topic is acknowledged. -/
theorem acks_own_topic_both : ∃ (s : State fun topic => { Consumer.plain 1 with topic }) (e : Engine _),
    s.engines[1]? = some e ∧ .ack { ledgerId := 1, entryId := 7 } false ∈ e.state.sent ∧
      (e.name, { ledgerId := 1, entryId := 7 }, false) ∈ s.calls := by
  obtain ⟨s, hs, hp⟩ := Sys.exists_reach_of_exec init_both
    (p := fun s => (s.engines[1]?).any fun e => e.state.deadLettered.isEmpty &&
      e.state.sent.contains (.ack { ledgerId := 1, entryId := 7 } false))
    (works 1 7 ++ [.rotate 5, .ack "b" { ledgerId := 1, entryId := 7 } false] ++
      [.item, .forward, .top false, .flow none, .next, .sent true].map (.engine 1)) (by decide +kernel)
  obtain ⟨e, he, hp⟩ := (Option.any_eq_true _ _).mp hp
  rw [Bool.and_eq_true, List.isEmpty_iff, List.contains_iff_mem] at hp
  obtain ⟨hletters, hsent⟩ := hp
  refine ⟨s, e, he, hsent, ?_⟩
  rcases acks_own_topic _ both s 1 e _ _ hs he hsent with hcalled | ⟨-, hletter⟩
  · exact hcalled
  · rw [hletters] at hletter
    exact absurd hletter List.not_mem_nil

end PulsarClient.MultiTopic.FanIn
