/-
  WHAT IS CREATED IS CLOSED — the producers that a `TopicProducer` has been told of, and what it leaves of
  them at the brokers.

  A producer may come to be registered on many connections: every reconnect of `send_message` creates it
  again, where the topic is served by then.  A broker keeps a producer until it is closed or the
  connection is gone, and a producer that nobody holds any more keeps its name, and an exclusive topic,
  from everyone else.

  1. `standing` — the successful creations that no `CloseProducer` on the same connection follows, read
     off the log of `producer` alone.  A creation is successful when `retry_create_producer` is done with
     it: `create_producer` has returned a success, and so has the wait for exclusive access, if there is
     one.  Before that the log has no `created`, and a `TopicProducer::new` that is dropped or fails there
     tells the broker nothing, whatever it may have registered.

  2. `Live` — at most ONE creation stands on a connection that is up: that of the task's own connection,
     and only while the task is between or in its sends.  Every way back to a registration closes first.

  3. `created_is_closed` — whoever is done has closed what it was told of: `Drop`, with the task that it
     spawns, of a producer that does not batch, and the end of the `message_send_loop` of one that does.
-/
import PulsarClient.Producer.SendMessage

namespace PulsarClient.Producer

open Runs Proto

/-! ## What stands -/

/-- One more command, for the creation on `conn`. -/
def Command.stands (conn : Nat) (standing : Bool) : Command → Bool
  | .created c => standing || c == conn
  | .closeProducer c => standing && c != conn
  | .create _ | .send .. => standing

/-- A creation has succeeded on `conn` that is not closed there. -/
def standing (log : List Command) (conn : Nat) : Bool :=
  log.foldl (fun standing c => c.stands conn standing) false

@[simp] theorem standing_concat (log : List Command) (c : Command) (conn : Nat) :
    standing (log ++ [c]) conn = c.stands conn (standing log conn) := by
  unfold standing
  rw [List.foldl_append]
  rfl

theorem standing_close {log : List Command} {x conn : Nat}
    (h : standing (log ++ [.closeProducer x]) conn = true) :
    standing log conn = true ∧ x ≠ conn := by
  rw [standing_concat] at h
  simpa [Command.stands] using h

/-- Only a close ends it. -/
theorem stands_foldl {conn : Nat} {after : List Command} (h : .closeProducer conn ∉ after) :
    after.foldl (fun standing c => c.stands conn standing) true = true := by
  induction after with
  | nil => rfl
  | cons c after ih =>
    rw [List.mem_cons, not_or] at h
    have hc : c.stands conn true = true := by
      cases c with
      | closeProducer x =>
        have hne : x ≠ conn := fun hx => h.1 (hx ▸ rfl)
        simpa [Command.stands] using hne
      | created x => rfl
      | create x => rfl
      | send x sequenceId message => rfl
    rw [List.foldl_cons, hc]
    exact ih h.2

theorem standing_of_not_closed {before after : List Command} {conn : Nat}
    (h : .closeProducer conn ∉ after) :
    standing (before ++ .created conn :: after) conn = true := by
  unfold standing
  rw [List.foldl_append, List.foldl_cons]
  have hcreated : Command.stands conn
      (before.foldl (fun standing c => c.stands conn standing) false) (.created conn) = true := by
    simp [Command.stands]
  rw [hcreated]
  exact stands_foldl h

/-! ## The invariant -/

/-- Whatever stands, stands on a connection that is gone. -/
def AllDown (s : State) : Prop := ∀ conn, standing s.log conn = true → s.down conn = true

/-- … but for the connection of a task that sends. -/
def Live (s : State) : Prop :=
  ∀ conn, standing s.log conn = true →
    s.down conn = true ∨ conn = s.connection ∧ s.pc.settled = true

section

variable {c : Config} {s s' : State}

theorem AllDown.live (h : AllDown s) : Live s := fun conn hconn => Or.inl (h conn hconn)

theorem Live.allDown (h : Live s) (hpc : s.pc.settled = false) : AllDown s := by
  intro conn hconn
  rcases h conn hconn with hdown | ⟨-, hsettled⟩
  · exact hdown
  · rw [hpc] at hsettled
    cases hsettled

/-- A step that neither creates nor closes, and does not touch the task. -/
theorem Live.calm (h : Live s) (hlog : s'.log = s.log) (hconn : s'.connection = s.connection)
    (hdown : ∀ x, s.down x = true → s'.down x = true)
    (hpc : s.pc.settled = true → s'.pc.settled = true) : Live s' := by
  intro conn hstanding
  rw [hlog] at hstanding
  rcases h conn hstanding with hd | ⟨rfl, hsettled⟩
  · exact Or.inl (hdown conn hd)
  · exact Or.inr ⟨hconn.symm, hpc hsettled⟩

theorem AllDown.calm (h : AllDown s) (hlog : s'.log = s.log) (hdown : s'.down = s.down) :
    AllDown s' := by
  intro conn hstanding
  rw [hlog] at hstanding
  rw [hdown]
  exact h conn hstanding

/-- A `CloseProducer` on a connection that nothing else stands beside. -/
theorem allDown_close (h : Live s) :
    AllDown (s.issue (.closeProducer s.connection)) := by
  intro conn hstanding
  obtain ⟨hold, hne⟩ := @standing_close s.log _ _ hstanding
  rcases h conn hold with hdown | ⟨hconn, -⟩
  · exact hdown
  · exact absurd hconn.symm hne

/-- The connection is gone with what stands on it. -/
theorem allDown_of_down (h : Live s) (hdown : s.down s.connection = true) : AllDown s := by
  intro conn hstanding
  rcases h conn hstanding with hd | ⟨rfl, -⟩
  · exact hd
  · exact hdown

theorem AllDown.fail (h : AllDown s) (job : Job) : AllDown (s.fail job) := by
  cases job with
  | build => exact h
  | send message => exact h

theorem AllDown.handleRetryError (h : AllDown s) (job : Job) (retries : Nat)
    (e : ConnectionError) : AllDown (s.handleRetryError c job retries e) := by
  unfold State.handleRetryError
  split
  · split
    · exact h.calm rfl rfl
    · exact h.fail job
  · exact h.fail job

/-- The creation succeeds: it is the only one that stands. -/
theorem AllDown.ready (h : AllDown s) (job : Job) (schemaVersion : Option Bytes) :
    Live (s.ready job schemaVersion) := by
  have hlive : ∀ conn, standing (s.log ++ [.created s.connection]) conn = true →
      s.down conn = true ∨ conn = s.connection := by
    intro conn hstanding
    rw [standing_concat] at hstanding
    have hor : standing s.log conn = true ∨ s.connection = conn := by
      simpa [Command.stands] using hstanding
    rcases hor with hold | hnew
    · exact Or.inl (h conn hold)
    · exact Or.inr hnew.symm
  intro conn hstanding
  cases job with
  | build => exact (hlive conn hstanding).imp_right fun hconn => ⟨hconn, rfl⟩
  | send message => exact (hlive conn hstanding).imp_right fun hconn => ⟨hconn, rfl⟩

theorem Live.closeHandle (h : Live s) : Live (s.closeHandle c) := by
  unfold State.closeHandle
  simp only
  split
  · exact h
  · intro conn hstanding
    exact h conn (@standing_close s.log _ _ hstanding).1

/-- The handle of a producer that does not batch closes where its task sends. -/
theorem Live.closeHandle_allDown (h : Live s) (hbatch : c.options.enabledBatching = false) :
    AllDown (s.closeHandle c) := by
  have hown : s.ownConnection c = s.connection := by
    unfold State.ownConnection
    rw [hbatch]
    exact if_neg Bool.false_ne_true
  unfold State.closeHandle
  simp only [hown]
  split
  · rename_i hdown
    exact allDown_of_down h hdown
  · exact allDown_close h

theorem closeHandle_pc (c : Config) (s : State) : (s.closeHandle c).pc = s.pc := by
  unfold State.closeHandle
  simp only
  split <;> rfl

theorem closeHandle_handle (c : Config) (s : State) : (s.closeHandle c).handle = s.handle := by
  unfold State.closeHandle
  simp only
  split <;> rfl

/-- The invariant: what stands, and that a handle which does not batch is dropped between two sends. -/
structure Releases (c : Config) (s : State) : Prop where
  live : Live s
  idle : c.options.enabledBatching = false → s.handle = .dropping ∨ s.handle = .dropped →
    s.pc = .idle
  dropped : c.options.enabledBatching = false → s.handle = .dropped → AllDown s

namespace Releases

theorem init : Releases c {} where
  live _ h := absurd h Bool.false_ne_true
  idle _ h := by rcases h with h | h <;> cases h
  dropped _ h := nomatch h

/-- A step of the task: its handle is not dropped, or the task is that of a batching producer. -/
theorem task (h : Releases c s) (hlive : Live s') (hhandle : s'.handle = s.handle)
    (hpc : s.pc ≠ .idle) : Releases c s' where
  live := hlive
  idle hbatch hdrop := absurd (h.idle hbatch (hhandle ▸ hdrop)) hpc
  dropped hbatch hdrop := absurd (h.idle hbatch (Or.inr (hhandle ▸ hdrop))) hpc

/-- What the world does. -/
theorem world (h : Releases c s) (hlog : s'.log = s.log) (hconn : s'.connection = s.connection)
    (hdown : ∀ x, s.down x = true → s'.down x = true) (hpc : s'.pc = s.pc)
    (hhandle : s'.handle = s.handle) : Releases c s' where
  live := h.live.calm hlog hconn hdown fun hsettled => hpc.symm ▸ hsettled
  idle hbatch hdrop := hpc.trans (h.idle hbatch (hhandle ▸ hdrop))
  dropped hbatch hdrop conn hstanding :=
    hdown conn (h.dropped hbatch (hhandle ▸ hdrop) conn (hlog ▸ hstanding))

/-- A call of `send_message`: of a batching producer, or by the holder of the handle. -/
theorem call (h : Releases c s) {message : ProducerMessage}
    (hheld : c.options.enabledBatching = false → s.handle = .held) :
    Releases c (s.call c message) := by
  unfold State.call
  split
  · refine ⟨h.live.calm rfl rfl (fun _ hx => hx) fun _ => rfl, fun hbatch hdrop => ?_,
      fun hbatch hdrop => ?_⟩
    · have hdrop' : s.handle = .dropping ∨ s.handle = .dropped := hdrop
      rw [hheld hbatch] at hdrop'
      rcases hdrop' with hdrop' | hdrop' <;> cases hdrop'
    · exact absurd ((hheld hbatch).symm.trans hdrop) Handle.noConfusion
  · exact h

/-- On the way back to a registration nothing stands, wherever it leads. -/
theorem lost (h : Releases c s) {pc : Pc} (hpc : s.pc = pc) (hsettled : pc.settled = false)
    (halive : pc ≠ .idle) (hdown : AllDown s → AllDown s') (hhandle : s'.handle = s.handle) :
    Releases c s' :=
  h.task (hdown (h.live.allDown (hpc ▸ hsettled))).live hhandle (hpc ▸ halive)

theorem fail_handle (s : State) (job : Job) : (s.fail job).handle = s.handle := by
  cases job <;> rfl

theorem handleRetryError_handle (s : State) (job : Job) (retries : Nat) (e : ConnectionError) :
    (s.handleRetryError c job retries e).handle = s.handle := by
  unfold State.handleRetryError
  split
  · split
    · rfl
    · exact fail_handle s job
  · exact fail_handle s job

/-- The creation succeeds: for the `TopicProducer` that is then held, or for the send that goes on. -/
theorem ready (h : Releases c s) {pc : Pc} (hpc : s.pc = pc) (hsettled : pc.settled = false)
    (halive : pc ≠ .idle) (job : Job) (schemaVersion : Option Bytes) :
    Releases c (s.ready job schemaVersion) := by
  have hlive := (h.live.allDown (hpc ▸ hsettled)).ready job schemaVersion
  cases job with
  | build =>
    refine ⟨hlive, fun _ hdrop => ?_, fun _ hdrop => nomatch hdrop⟩
    rcases hdrop with hdrop | hdrop <;> cases hdrop
  | send message => exact h.task hlive rfl (hpc ▸ halive)

/-- **The step lemma.** -/
theorem step (h : Releases c s) {a : Action} (hs : Producer.step c s a = some s') :
    Releases c s' := by
  cases step_moves hs with
  | sendRaw _ hheld hpc => exact h.call fun _ => hheld
  | batch hbatch hpc => exact h.call fun hfalse => absurd (hbatch.symm.trans hfalse) Bool.noConfusion
  | check hpc _ | invalid hpc _ | lost hpc _ | refused hpc _ _ =>
    exact h.task (h.live.calm rfl rfl (fun _ hx => hx) fun _ => rfl) rfl
      (by rw [hpc]; exact Pc.noConfusion)
  | sent hpc _ =>
    refine h.task (fun conn hstanding => ?_) rfl (by rw [hpc]; exact Pc.noConfusion)
    have hold : standing s.log conn = true := (standing_concat s.log _ conn).symm.trans hstanding
    exact (h.live conn hold).imp_right fun hlive => ⟨hlive.1, rfl⟩
  | unreachable hpc hdown =>
    have hall : AllDown s := allDown_of_down h.live hdown
    exact h.task (fun conn hstanding => Or.inl (hall conn hstanding)) rfl
      (by rw [hpc]; exact Pc.noConfusion)
  | closeProducer hpc _ =>
    have hall : AllDown (s.issue (.closeProducer s.connection)) := allDown_close h.live
    exact h.task (fun conn hstanding => Or.inl (hall conn hstanding)) rfl
      (by rw [hpc]; exact Pc.noConfusion)
  | closeReturned hpc | lookedUp hpc | lookedUpAgain hpc | opened hpc | gotConnection hpc
  | gotConnectionAgain hpc | delayed hpc | partly hpc _ =>
    exact h.lost hpc rfl Pc.noConfusion (fun hdown => hdown.calm rfl rfl) rfl
  | notFound hpc | notFoundAgain hpc | notOpened hpc | noConnection hpc | noConnectionAgain hpc
  | noExclusive hpc =>
    exact h.lost hpc rfl Pc.noConfusion (fun hdown => hdown.fail _) (fail_handle s _)
  | uncreated hpc _ | notCreated hpc =>
    exact h.lost hpc rfl Pc.noConfusion (fun hdown => hdown.handleRetryError _ _ _)
      (handleRetryError_handle s _ _ _)
  | createProducer hpc _ =>
    refine h.lost hpc rfl Pc.noConfusion (fun hdown conn hstanding => ?_) rfl
    exact hdown conn ((standing_concat s.log _ conn).symm.trans hstanding)
  | created hpc _ => exact h.ready hpc rfl Pc.noConfusion _ _
  | exclusive hpc => exact h.ready hpc rfl Pc.noConfusion _ _
  | dropped hjob _ =>
    obtain ⟨hsettled, -⟩ := Inv.awaits_spec hjob
    exact h.lost rfl hsettled (fun hidle => by rw [hidle] at hsettled; cases hsettled)
      (fun hdown => hdown.fail _) (fail_handle s _)
  | droppedSend hjob _ =>
    refine h.task (h.live.calm rfl rfl (fun _ hx => hx) fun _ => rfl) rfl fun hidle => ?_
    rw [hidle] at hjob
    cases hjob
  | close hbatch _ =>
    refine ⟨h.live, fun hfalse => ?_, fun hfalse => ?_⟩
    · exact absurd (hbatch.symm.trans hfalse) Bool.noConfusion
    · exact absurd (hbatch.symm.trans hfalse) Bool.noConfusion
  | closeHandle hopen =>
    have hheld : s.handle = .held ∨ s.handle = .closed := by
      split at hopen
      · exact Or.inr hopen
      · exact Or.inl hopen.1
    have hkept : (s.closeHandle c).handle = s.handle := closeHandle_handle c s
    refine ⟨h.live.closeHandle, fun _ hdrop => ?_, fun _ hdrop => ?_⟩
    · rw [hkept] at hdrop
      rcases hheld with hh | hh <;> rw [hh] at hdrop <;> rcases hdrop with hd | hd <;> cases hd
    · rw [hkept] at hdrop
      rcases hheld with hh | hh <;> rw [hh] at hdrop <;> cases hdrop
  | batchesEnd hbatch _ _ hlog =>
    refine ⟨fun conn hstanding => Or.inl ?_, fun hfalse => ?_, fun hfalse => ?_⟩
    · subst hlog
      by_cases hdown : s.down s.connection = true
      · exact allDown_of_down h.live hdown conn
          ((congrArg (standing · conn) (if_pos hdown)).symm.trans hstanding)
      · exact allDown_close h.live conn
          ((congrArg (standing · conn) (if_neg hdown)).symm.trans hstanding)
    · exact absurd (hbatch.symm.trans hfalse) Bool.noConfusion
    · exact absurd (hbatch.symm.trans hfalse) Bool.noConfusion
  | dropHandle _ hfree =>
    refine ⟨h.live, fun hfalse _ => ?_, fun _ hdrop => nomatch hdrop⟩
    exact hfree.resolve_left fun hbatch => Bool.noConfusion (hbatch.symm.trans hfalse)
  | dropTask hdropping =>
    refine ⟨(h.live.closeHandle (c := c)).calm rfl rfl (fun _ hx => hx) fun hs => hs,
      fun hbatch _ => ?_, fun hbatch _ => ?_⟩
    · exact (closeHandle_pc c s).trans (h.idle hbatch (Or.inl hdropping))
    · exact (h.live.closeHandle_allDown hbatch).calm rfl rfl
  | setError | takeError => exact h.world rfl rfl (fun _ hx => hx) rfl rfl
  | goDown =>
    rename_i conn
    refine h.world rfl rfl (fun x hx => ?_) rfl rfl
    show Function.update s.down conn true x = true
    by_cases hxc : x = conn
    · rw [hxc, Function.update_self]
    · rw [Function.update_of_ne hxc]
      exact hx

theorem reach (h : (producer c).Reach s) : Releases c s := by
  refine Sys.ReachIf.inv (Releases c) ?_ (fun _ _ _ hinv _ hs => hinv.step hs) h
  rintro s rfl
  exact init

end Releases

end

/-! ## The main result -/

/-- Nobody sends with the producer any more: its task has ended, or it does not batch, its handle is
    dropped, and what `Drop` has spawned has run. -/
def Finished (c : Config) (s : State) : Prop :=
  s.pc = .gone ∨ c.options.enabledBatching = false ∧ s.handle = .dropped

/-- **What is created is closed.**  In every run — reconnects, failed and dropped calls, closes and drops
    in any order — a creation that has succeeded is, once the producer is finished, followed by a
    `CloseProducer` on the same connection, unless that connection is gone.  And while it is not finished,
    at most one creation stands on a connection that is up: the one the task sends on. -/
theorem created_is_closed {c : Config} {s : State} (h : (producer c).Reach s)
    {before after : List Command} {conn : Nat} (hlog : s.log = before ++ .created conn :: after) :
    .closeProducer conn ∈ after ∨ s.down conn = true ∨ ¬ Finished c s ∧ conn = s.connection := by
  have hinv := Releases.reach h
  by_cases hclosed : .closeProducer conn ∈ after
  · exact Or.inl hclosed
  · have hstanding : standing s.log conn = true := hlog ▸ standing_of_not_closed hclosed
    refine Or.inr ?_
    by_cases hfinished : Finished c s
    · refine Or.inl ?_
      rcases hfinished with hgone | ⟨hbatch, hdropped⟩
      · exact hinv.live.allDown (by rw [hgone]; rfl) conn hstanding
      · exact hinv.dropped hbatch hdropped conn hstanding
    · exact (hinv.live conn hstanding).imp_right fun hlive => ⟨hfinished, hlive.1⟩

/-- A producer that loses connection 0, comes back on 1, and is dropped. -/
def moved : List Action :=
  let success : CommandProducerSuccess := { requestId := 0, producerName := "p" }
  [.gotConnection (some 0), .gotConnection (some 0), .createProducer, .created (.ok success),
    .sendRaw { payload := [] }, .setError 0 .Disconnected, .check, .closeProducer, .closeReturned,
    .lookedUp true, .gotConnection (some 1), .createProducer, .created (.ok success), .check,
    .sent none, .dropHandle, .dropTask]

/-- The creation on the first connection. -/
theorem created_is_closed_moved : ∃ (s : State) (after : List Command), Finished {} s ∧
    s.log = [.create 0] ++ .created 0 :: after ∧
    (.closeProducer 0 ∈ after ∨ s.down 0 = true ∨ ¬ Finished {} s ∧ 0 = s.connection) := by
  obtain ⟨s, hs, hp⟩ := Sys.exists_reach_of_exec (S := producer {})
    (p := fun s => s.handle == .dropped && s.log ==
      [.create 0] ++ .created 0 :: [.closeProducer 0, .create 1, .created 1,
        .send 1 0 { payload := [] }, .closeProducer 1]) rfl moved (by decide)
  rw [Bool.and_eq_true, beq_iff_eq, beq_iff_eq] at hp
  exact ⟨s, _, Or.inr ⟨rfl, hp.1⟩, hp.2, created_is_closed hs hp.2⟩

end PulsarClient.Producer
