/-
  `choose_partition`: WHICH of the producers of a partitioned topic a message goes to.

  1. `HashingScheme` — `String.hashCode()` of Java as a wrapping fold over UTF-16 units, or Murmur3
     (its crate is a parameter), both without the sign bit, and the remainder by the number of
     producers.

  2. `PartitionedProducer` — the producers and the position of the round robin, which is never out of
     the vector: a field of the structure.

  3. `choosePartition` — a key supersedes every policy but the application's own.

  4. `choose_keyed` — the closed form: the polynomial of the units at 31, and the text that is hashed is
     the one that the message carries on the wire, sent by itself or in a batch.
-/
import PulsarClient.Batching.Content
import Mathlib.Algebra.BigOperators.Fin
import Mathlib.Tactic.Ring

namespace PulsarClient.Partitions

open Batching

/-! ## `routing_policy` -/

inductive HashingScheme where
  | JavaStringHash
  | Murmur3_32Hash
  deriving DecidableEq, Repr

/-- `char::encode_utf16` -/
def encodeUtf16Char (c : Char) : List UInt16 :=
  if c.toNat < 0x10000 then [UInt16.ofNat c.toNat]
  else
    [UInt16.ofNat (0xD800 + (c.toNat - 0x10000) / 0x400),
     UInt16.ofNat (0xDC00 + (c.toNat - 0x10000) % 0x400)]

/-- `str::encode_utf16` -/
def encodeUtf16 (key : String) : List UInt16 := key.toList.flatMap encodeUtf16Char

/-- `h.wrapping_mul(31).wrapping_add(i32::from(unit))`, on the 32 bits of an `i32`. -/
def hashUnit (h : BitVec 32) (unit : UInt16) : BitVec 32 := h * 31#32 + BitVec.ofNat 32 unit.toNat

/-- `java_string_hash` -/
def javaStringHash (key : String) : BitVec 32 :=
  (encodeUtf16 key).foldl hashUnit 0 &&& 0x7fffffff#32

/-- The crate `murmur3`: the hash of some bytes from a seed. -/
abbrev Murmur3 := Bytes → BitVec 32 → BitVec 32

section

variable (murmur3_32 : Murmur3)

/-- `murmur3_32_hash` -/
def murmur3_32Hash (bytes : Bytes) : BitVec 32 := murmur3_32 bytes 0 &&& 0x7fffffff#32

/-- `HashingScheme::make_hash` -/
def HashingScheme.makeHash (key : String) : HashingScheme → BitVec 32
  | JavaStringHash => javaStringHash key
  | Murmur3_32Hash => murmur3_32Hash murmur3_32 key.toUTF8.data.toList

/-- `sign_safe_mod` -/
def signSafeMod (hash : BitVec 32) (partitionCount : Nat) : Nat := hash.toNat % partitionCount

/-- `RoutingPolicy::compute_partition_index_for_key` -/
def computePartitionIndexForKey (key : String) (partitionCount : Nat) (scheme : HashingScheme) :
    Nat :=
  signSafeMod (scheme.makeHash murmur3_32 key) partitionCount

/-- "The returned index is always less than `partition_count`." -/
theorem computePartitionIndexForKey_lt (key : String) {n : Nat} (hn : 0 < n)
    (scheme : HashingScheme) : computePartitionIndexForKey murmur3_32 key n scheme < n :=
  Nat.mod_lt _ hn

end

/-! ## The closed form of the hash -/

/-- The units of a string as the digits of a number in base 31, the first one the leading digit. -/
def polynomial (units : List UInt16) : Nat :=
  ∑ i : Fin units.length, units[i].toNat * 31 ^ (units.length - 1 - i)

theorem polynomial_cons (u : UInt16) (units : List UInt16) :
    polynomial (u :: units) = u.toNat * 31 ^ units.length + polynomial units := by
  unfold polynomial
  rw [show ∑ i : Fin (u :: units).length,
      (u :: units)[i].toNat * 31 ^ ((u :: units).length - 1 - i) = _ from Fin.sum_univ_succ _]
  have htail : ∀ i : Fin units.length,
      (u :: units)[i.succ].toNat * 31 ^ ((u :: units).length - 1 - (i.succ : Nat)) =
        units[i].toNat * 31 ^ (units.length - 1 - i) := by
    intro i
    have hexponent : (u :: units).length - 1 - (i.succ : Nat) = units.length - 1 - i := by
      simp only [List.length_cons, Fin.val_succ]
      omega
    rw [hexponent]
    rfl
  exact congrArg₂ (· + ·) rfl (Finset.sum_congr rfl fun i _ => htail i)

/-- The fold is Horner's rule, modulo 2³². -/
theorem foldl_hashUnit (units : List UInt16) (h : BitVec 32) :
    (units.foldl hashUnit h).toNat = (h.toNat * 31 ^ units.length + polynomial units) % 2 ^ 32 := by
  induction units generalizing h with
  | nil =>
    have hnone : polynomial [] = 0 := rfl
    rw [hnone]
    simp only [List.foldl_nil, List.length_nil, Nat.pow_zero, Nat.mul_one, Nat.add_zero]
    exact (Nat.mod_eq_of_lt h.isLt).symm
  | cons u units ih =>
    have hunit : (hashUnit h u).toNat = (h.toNat * 31 + u.toNat) % 2 ^ 32 := by
      simp only [hashUnit, BitVec.toNat_add, BitVec.toNat_mul, BitVec.toNat_ofNat, Nat.reducePow,
        Nat.reduceMod]
      omega
    rw [List.foldl_cons, ih, hunit, polynomial_cons, List.length_cons, Nat.pow_succ]
    -- the remainder of a factor may be taken at any time
    calc ((h.toNat * 31 + u.toNat) % 2 ^ 32 * 31 ^ units.length + polynomial units) % 2 ^ 32
        = ((h.toNat * 31 + u.toNat) * 31 ^ units.length + polynomial units) % 2 ^ 32 := by
          rw [Nat.add_mod, Nat.mod_mul_mod, ← Nat.add_mod]
      _ = (h.toNat * (31 ^ units.length * 31) +
            (u.toNat * 31 ^ units.length + polynomial units)) % 2 ^ 32 := by
          congr 1
          ring

/-- The mask clears the sign bit. -/
theorem toNat_mask (hash : BitVec 32) : (hash &&& 0x7fffffff#32).toNat = hash.toNat % 2 ^ 31 := by
  rw [BitVec.toNat_and]
  exact Nat.and_two_pow_sub_one_eq_mod hash.toNat 31

theorem javaStringHash_toNat (key : String) :
    (javaStringHash key).toNat = polynomial (encodeUtf16 key) % 2 ^ 32 % 2 ^ 31 := by
  unfold javaStringHash
  rw [toNat_mask, foldl_hashUnit]
  simp

/-- The partition that the clients of Java and the broker compute for a key. -/
def javaPartition (murmur3_32 : Murmur3) (scheme : HashingScheme) (key : String) (n : Nat) : Nat :=
  match scheme with
  | .JavaStringHash => polynomial (encodeUtf16 key) % 2 ^ 32 % 2 ^ 31 % n
  | .Murmur3_32Hash => (murmur3_32 key.toUTF8.data.toList 0).toNat % 2 ^ 31 % n

theorem computePartitionIndexForKey_eq (murmur3_32 : Murmur3) (key : String) (n : Nat)
    (scheme : HashingScheme) :
    computePartitionIndexForKey murmur3_32 key n scheme = javaPartition murmur3_32 scheme key n := by
  cases scheme with
  | JavaStringHash => exact congrArg (· % n) (javaStringHash_toNat key)
  | Murmur3_32Hash => exact congrArg (· % n) (toNat_mask _)

/-- `PartitionKey::routing_key`: "The text form the broker stores and the routers hash." -/
def routingKey (lib : Libraries) : PartitionKey → Option String
  | .Text key => some key
  | .Bytes key => some (lib.base64 key)
  | .Null => none

/-! ## `PartitionedProducer` -/

/-- `RoutingPolicy` -/
inductive RoutingPolicy where
  | RoundRobin
  | Single
  /-- the application's own: an index from the message and the number of producers -/
  | Custom (route : Batching.Message → Nat → Nat)

/-- `ProducerOptions`, of which routing reads these two. -/
structure ProducerOptions where
  routingPolicy : Option RoutingPolicy := none
  hashingScheme : HashingScheme := .JavaStringHash

/-- `TopicProducer`, which routing knows by its topic. -/
structure TopicProducer where
  topic : String
  deriving DecidableEq, Repr

/-- `PartitionedProducer`.  Its producers are "guaranteed to be non-empty", and the round robin stands
    at one of them. -/
structure PartitionedProducer where
  producers : List TopicProducer
  lastUsedProducerIndex : Nat
  used_lt : lastUsedProducerIndex < producers.length
  topic : String
  options : ProducerOptions
  partitionRefresh : Option Nat
  lastPartitionCheck : Nat

namespace PartitionedProducer

theorem nonempty (p : PartitionedProducer) : 0 < p.producers.length := by
  have hlt := p.used_lt
  omega

/-- `get_next_round_robin_producer` -/
def getNextRoundRobinProducer (p : PartitionedProducer) : TopicProducer × PartitionedProducer :=
  if h : p.lastUsedProducerIndex + 1 < p.producers.length then
    (p.producers[p.lastUsedProducerIndex + 1],
      { p with lastUsedProducerIndex := p.lastUsedProducerIndex + 1, used_lt := h })
  else
    (p.producers.get ⟨0, p.nonempty⟩, { p with lastUsedProducerIndex := 0, used_lt := p.nonempty })

variable (lib : Libraries) (murmur3_32 : Murmur3)

/-- `route_by_key` -/
def routeByKey (p : PartitionedProducer) (partitionKey : String) : TopicProducer :=
  p.producers.get
    ⟨computePartitionIndexForKey murmur3_32 partitionKey p.producers.length p.options.hashingScheme,
      computePartitionIndexForKey_lt murmur3_32 partitionKey p.nonempty p.options.hashingScheme⟩

/-- `hash_routed_key` of `choose_partition`. -/
def hashRoutedKey (p : PartitionedProducer) (message : Batching.Message) : Option String :=
  match p.options.routingPolicy with
  | some (.Custom _) => none
  | _ => message.partitionKey.bind (routingKey lib)

/-- `choose_partition`: the producer to send with.  None: the router of the application has named an
    index out of the vector, and `unwrap` panics. -/
def choosePartition (p : PartitionedProducer) (message : Batching.Message) :
    Option TopicProducer × PartitionedProducer :=
  match p.hashRoutedKey lib message with
  | some partitionKey => (some (p.routeByKey murmur3_32 partitionKey), p)
  | none =>
    match p.options.routingPolicy with
    | some .Single => (some (p.producers.get ⟨p.lastUsedProducerIndex, p.used_lt⟩), p)
    | some (.Custom route) => (p.producers[route message p.producers.length]?, p)
    | some .RoundRobin | none =>
      (some p.getNextRoundRobinProducer.1, p.getNextRoundRobinProducer.2)

end PartitionedProducer

/-- `ProducerInner`: a topic of one partition has a producer by itself, with `options` of its own. -/
inductive ProducerInner where
  | Single (producer : TopicProducer) (options : ProducerOptions)
  | Partitioned (p : PartitionedProducer)

namespace ProducerInner

def producers : ProducerInner → List TopicProducer
  | Single producer _ => [producer]
  | Partitioned p => p.producers

def options : ProducerInner → ProducerOptions
  | Single _ options => options
  | Partitioned p => p.options

/-- The producer that `send_non_blocking` and `send_all` send a message with. -/
def choose (lib : Libraries) (murmur3_32 : Murmur3) (inner : ProducerInner)
    (message : Batching.Message) : Option TopicProducer × ProducerInner :=
  match inner with
  | Single producer options => (some producer, Single producer options)
  | Partitioned p =>
    ((p.choosePartition lib murmur3_32 message).1,
      Partitioned (p.choosePartition lib murmur3_32 message).2)

end ProducerInner

/-! ## Routing by key -/

variable {lib : Libraries} {murmur3_32 : Murmur3}

/-- Hashing and sending turn a key into text independently, and into the same text. -/
theorem into_partitionKey (m : Batching.Message) :
    (m.into lib).partitionKey = m.partitionKey.bind (routingKey lib) := by
  unfold Message.into
  cases m.partitionKey with
  | none => rfl
  | some key => cases key <;> rfl

/-- A key is hashed under every policy but the application's own. -/
theorem hashRoutedKey_eq (p : PartitionedProducer) (m : Batching.Message)
    (hpolicy : ∀ route, p.options.routingPolicy ≠ some (.Custom route)) :
    p.hashRoutedKey lib m = (m.into lib).partitionKey := by
  rw [into_partitionKey]
  unfold PartitionedProducer.hashRoutedKey
  split
  · rename_i route hroute
    exact absurd hroute (hpolicy route)
  · rfl

/-- … and it decides alone: the round robin stays where it is. -/
theorem choosePartition_keyed (murmur3_32 : Murmur3) (p : PartitionedProducer)
    (m : Batching.Message) {key : String} (hkey : p.hashRoutedKey lib m = some key) :
    p.choosePartition lib murmur3_32 m = (some (p.routeByKey murmur3_32 key), p) := by
  unfold PartitionedProducer.choosePartition
  rw [hkey]

theorem choose_javaPartition (inner : ProducerInner) (m : Batching.Message) {key : String}
    (hpolicy : ∀ route, inner.options.routingPolicy ≠ some (.Custom route))
    (hkey : (m.into lib).partitionKey = some key) :
    inner.choose lib murmur3_32 m =
      (inner.producers[javaPartition murmur3_32 inner.options.hashingScheme key
        inner.producers.length]?, inner) := by
  cases inner with
  | Single producer options =>
    -- the only index there is
    have hzero : javaPartition murmur3_32 options.hashingScheme key 1 = 0 := by
      cases options.hashingScheme <;> exact Nat.mod_one _
    show (some producer, _) = ([producer][javaPartition murmur3_32 options.hashingScheme key 1]?, _)
    rw [hzero]
    rfl
  | Partitioned p =>
    have hrouted := choosePartition_keyed murmur3_32 p m
      ((hashRoutedKey_eq p m hpolicy).trans hkey)
    have hindex : some (p.routeByKey murmur3_32 key) =
        p.producers[javaPartition murmur3_32 p.options.hashingScheme key p.producers.length]? := by
      rw [← computePartitionIndexForKey_eq]
      exact (List.getElem?_eq_getElem _).symm
    show ((p.choosePartition lib murmur3_32 m).1, ProducerInner.Partitioned _) = _
    rw [hrouted]
    exact Prod.ext hindex rfl

/-- Compression leaves the key alone. -/
theorem compressMessage_partitionKey {message sent : ProducerMessage}
    {compression : Option Compression} (h : compressMessage lib message compression = .ok sent) :
    sent.partitionKey = message.partitionKey := by
  unfold compressMessage at h
  split at h
  · rw [← Except.ok.inj h]
  · rw [← Except.ok.inj h]
  · split at h
    · cases h
    · rw [← Except.ok.inj h]

/-- **Keyed routing is Java's.**  Wherever the round robin stands, a message with a text or binary key
    goes to the producer that Java computes from `key`; and `key` is what every form of the message
    carries: as an entry, whatever the compression, and in a batch. -/
theorem choose_keyed (lib : Libraries) (murmur3_32 : Murmur3) (inner : ProducerInner)
    (m : Batching.Message) (k : PartitionKey) (hk : m.partitionKey = some k) (hnull : k ≠ .Null)
    (hpolicy : ∀ route, inner.options.routingPolicy ≠ some (.Custom route)) :
    ∃ key, (k = .Text key ∨ ∃ bytes, k = .Bytes bytes ∧ key = lib.base64 bytes) ∧
      inner.choose lib murmur3_32 m =
        (inner.producers[javaPartition murmur3_32 inner.options.hashingScheme key
          inner.producers.length]?, inner) ∧
      javaPartition murmur3_32 inner.options.hashingScheme key inner.producers.length <
        inner.producers.length ∧
      (∀ schemaVersion compression sent,
        compressMessage lib (direct lib schemaVersion m) compression = .ok sent →
        ∀ producerName sequenceId publishTime,
          (sent.toPayload producerName sequenceId publishTime).metadata.partitionKey = some key) ∧
      (m.into lib).batched.metadata.partitionKey = some key := by
  obtain ⟨key, htext, hkey⟩ : ∃ key,
      (k = .Text key ∨ ∃ bytes, k = .Bytes bytes ∧ key = lib.base64 bytes) ∧
        routingKey lib k = some key := by
    cases k with
    | Text key => exact ⟨key, Or.inl rfl, rfl⟩
    | Bytes bytes => exact ⟨lib.base64 bytes, Or.inr ⟨bytes, rfl, rfl⟩, rfl⟩
    | Null => exact absurd rfl hnull
  have hwire : (m.into lib).partitionKey = some key := by
    rw [into_partitionKey, hk]
    exact hkey
  have hsome : 0 < inner.producers.length := by
    cases inner with
    | Single => exact Nat.one_pos
    | Partitioned p => exact p.nonempty
  refine ⟨key, htext, choose_javaPartition inner m hpolicy hwire, ?_, ?_, hwire⟩
  · rw [← computePartitionIndexForKey_eq]
    exact computePartitionIndexForKey_lt murmur3_32 key hsome _
  · intro schemaVersion compression sent hsent producerName sequenceId publishTime
    exact (compressMessage_partitionKey hsent).trans hwire

/-- U+1F600, two units: partition 2 of 7. -/
theorem choose_keyed_surrogates :
    let murmur3_32 : Murmur3 := fun bytes _ =>
      if bytes = [0xf0, 0x9f, 0x98, 0x80] then 3199479546 else 0
    let inner : ProducerInner := .Partitioned
      { producers := ["a", "b", "c", "d", "e", "f", "g"].map fun topic => { topic }
        lastUsedProducerIndex := 4
        used_lt := by decide
        topic := ""
        options := {}
        partitionRefresh := none
        lastPartitionCheck := 0 }
    (inner.choose threeLibraries murmur3_32 { partitionKey := some (.Text "😀") }).1 =
      some { topic := "c" } := by
  intro murmur3_32 inner
  obtain ⟨key, htext, hchosen, -⟩ := choose_keyed threeLibraries murmur3_32 inner
    { partitionKey := some (.Text "😀") } (.Text "😀") rfl (by simp)
    (fun route hroute => by cases hroute)
  obtain rfl : key = "😀" := by
    rcases htext with h | ⟨bytes, h, -⟩
    · exact (PartitionKey.Text.inj h).symm
    · cases h
  rw [hchosen]
  decide +kernel

end PulsarClient.Partitions
