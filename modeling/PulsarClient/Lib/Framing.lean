/-
  FRAMES OVER A STREAM — a decoder that is called on a growing buffer.

  Bytes arrive in chunks that know nothing about frames.  Whoever reads appends a chunk to what is left
  over and calls `decode` until it asks for more (`drain`), and again for the next chunk (`feed`).

  1. A `Decoder` says what one call answers and what it leaves in the buffer; that a decoded frame
     makes the buffer shorter is part of it, so that `drain` is total.

  2. `Framed d enc m` is all one has to show for one kind of frame: in front of anything it is decoded
     and cut off, and a proper prefix of it asks for more.

  3. `feed_flatten` — however the encodings of a list of messages are cut, feeding the pieces gives
     back the list, and the buffer is empty at the end.
-/
import Mathlib.Data.List.Basic

namespace PulsarClient.Framing

/-- `decode buf`: the answer, and the buffer afterwards. -/
structure Decoder (α β ε : Type) where
  decode : List β → Except ε (Option α) × List β
  shrinks : ∀ {buf m rest}, decode buf = (.ok (some m), rest) → rest.length < buf.length

variable {α β ε : Type}

namespace Decoder

variable (d : Decoder α β ε)

/-- Call `decode` until it asks for more bytes or fails: the messages, the buffer, the failure. -/
def drain (buf : List β) : List α × List β × Option ε :=
  match _h : d.decode buf with
  | (.ok (some m), rest) => (m :: (drain rest).1, (drain rest).2)
  | (.ok none, rest) => ([], rest, none)
  | (.error e, rest) => ([], rest, some e)
termination_by buf.length
decreasing_by
  all_goals exact d.shrinks _h

/-- Append the chunks one after another and drain the buffer after each; a failure ends it. -/
def feed : List β → List (List β) → List α × List β × Option ε
  | buf, [] => ([], buf, none)
  | buf, chunk :: chunks =>
    match d.drain (buf ++ chunk) with
    | (ms, rest, none) => (ms ++ (feed rest chunks).1, (feed rest chunks).2)
    | (ms, rest, some e) => (ms, rest, some e)

variable {d}

theorem drain_some {buf rest : List β} {m : α} (h : d.decode buf = (.ok (some m), rest)) :
    d.drain buf = (m :: (d.drain rest).1, (d.drain rest).2) := by
  rw [drain]
  split
  · rename_i m' rest' h'
    rw [h] at h'
    obtain ⟨rfl, rfl⟩ : m = m' ∧ rest = rest' := by simpa using h'
    rfl
  · rename_i rest' h'
    rw [h] at h'
    simp at h'
  · rename_i e rest' h'
    rw [h] at h'
    simp at h'

theorem drain_none {buf rest : List β} (h : d.decode buf = (.ok none, rest)) :
    d.drain buf = ([], rest, none) := by
  rw [drain]
  split
  · rename_i m' rest' h'
    rw [h] at h'
    simp at h'
  · rename_i rest' h'
    rw [h] at h'
    obtain rfl : rest = rest' := by simpa using h'
    rfl
  · rename_i e rest' h'
    rw [h] at h'
    simp at h'

end Decoder

/-- The decoder reads the frame that `enc` writes for `m`. -/
structure Framed (d : Decoder α β ε) (enc : α → List β) (m : α) : Prop where
  whole : ∀ rest, d.decode (enc m ++ rest) = (.ok (some m), rest)
  cut : ∀ p q, enc m = p ++ q → q ≠ [] → d.decode p = (.ok none, p)

section

variable {d : Decoder α β ε} {enc : α → List β}

/-- Draining the start of a stream of frames: the messages that are there whole, and a rest that asks
    for more. -/
theorem drain_prefix (h0 : d.decode [] = (.ok none, [])) (ms : List α)
    (h : ∀ m ∈ ms, Framed d enc m) : ∀ (buf rest : List β), buf ++ rest = ms.flatMap enc →
      ∃ done todo left, ms = done ++ todo ∧ d.drain buf = (done, left, none) ∧
        d.decode left = (.ok none, left) ∧ left ++ rest = todo.flatMap enc := by
  induction ms with
  | nil =>
    intro buf rest hbuf
    obtain ⟨rfl, rfl⟩ := List.append_eq_nil_iff.mp hbuf
    exact ⟨[], [], [], rfl, Decoder.drain_none h0, h0, rfl⟩
  | cons m ms ih =>
    intro buf rest hbuf
    have hm := h m List.mem_cons_self
    rw [List.flatMap_cons] at hbuf
    -- the buffer ends in the first frame, or behind it
    rcases List.append_eq_append_iff.mp hbuf with ⟨q, hq, hrest⟩ | ⟨tail, hbuf', htail⟩
    · by_cases hqne : q = []
      · -- the chunk ends with the frame
        subst hqne
        rw [List.append_nil] at hq
        rw [List.nil_append] at hrest
        obtain ⟨done, todo, left, hms, hdrain, hstuck, hleft⟩ :=
          ih (fun m' hm' => h m' (List.mem_cons_of_mem m hm')) [] rest hrest
        have hdec : d.decode buf = (.ok (some m), []) := by
          rw [← hq]
          simpa using hm.whole []
        refine ⟨m :: done, todo, left, by rw [hms, List.cons_append], ?_, hstuck, hleft⟩
        rw [Decoder.drain_some hdec, hdrain]
      · have hdec := hm.cut buf q hq hqne
        refine ⟨[], m :: ms, buf, rfl, Decoder.drain_none hdec, hdec, ?_⟩
        rw [List.flatMap_cons]
        exact hbuf
    · obtain ⟨done, todo, left, hms, hdrain, hstuck, hleft⟩ :=
        ih (fun m' hm' => h m' (List.mem_cons_of_mem m hm')) tail rest htail.symm
      have hdec : d.decode buf = (.ok (some m), tail) := by
        rw [hbuf']
        exact hm.whole tail
      refine ⟨m :: done, todo, left, by rw [hms, List.cons_append], ?_, hstuck, hleft⟩
      rw [Decoder.drain_some hdec, hdrain]

/-- **The stream rule**, from a buffer that has been drained. -/
theorem feed_of_stuck (h0 : d.decode [] = (.ok none, [])) (chunks : List (List β)) :
    ∀ (ms : List α) (buf : List β), (∀ m ∈ ms, Framed d enc m) → d.decode buf = (.ok none, buf) →
      buf ++ chunks.flatten = ms.flatMap enc → d.feed buf chunks = (ms, [], none) := by
  induction chunks with
  | nil =>
    intro ms buf h hstuck hbuf
    rw [List.flatten_nil, List.append_nil] at hbuf
    cases ms with
    | nil =>
      rw [hbuf]
      rfl
    | cons m ms =>
      -- a whole frame would not have been left over
      have hdec := (h m List.mem_cons_self).whole (ms.flatMap enc)
      rw [← List.flatMap_cons, ← hbuf, hstuck] at hdec
      simp at hdec
  | cons chunk chunks ih =>
    intro ms buf h _ hbuf
    rw [List.flatten_cons, ← List.append_assoc] at hbuf
    obtain ⟨done, todo, left, rfl, hdrain, hstuck, hleft⟩ :=
      drain_prefix h0 ms h (buf ++ chunk) chunks.flatten hbuf
    have htodo : ∀ m ∈ todo, Framed d enc m := fun m hm => h m (List.mem_append_right done hm)
    rw [Decoder.feed, hdrain]
    simp only [ih todo left htodo hstuck hleft]

/-- **Headline.**  Feeding the encodings of messages, cut anywhere, gives back the messages. -/
theorem feed_flatten (h0 : d.decode [] = (.ok none, [])) {ms : List α}
    (h : ∀ m ∈ ms, Framed d enc m) {chunks : List (List β)}
    (hcut : chunks.flatten = ms.flatMap enc) : d.feed [] chunks = (ms, [], none) :=
  feed_of_stuck h0 chunks ms [] h h0 hcut

end

end PulsarClient.Framing
