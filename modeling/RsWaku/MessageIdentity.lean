import Mathlib.Data.Set.Function
import RsWaku.Relay
import RsWaku.Sqlite

/-! What the deterministic hash identifies: the concatenation of the hashed fields, and
so a message only up to the position of its field boundaries. -/
namespace RsWaku
open Bytes
variable {crates : Crates} {t t' : String} {m m' : WakuMessage}

def hashedFields (pubsubTopic : String) (msg : WakuMessage) : List (List UInt8) :=
  [asBytes pubsubTopic, msg.payload, asBytes msg.contentTopic, msg.metadata.getD [],
    (msg.timestamp.map toBeBytes).getD []]

theorem hashPreimage_eq_flatten (t : String) (m : WakuMessage) :
    hashPreimage t m = (hashedFields t m).flatten := by
  simp [hashPreimage, hashedFields]

theorem timestampBytes_inj {a b : Option Int64}
    (h : (a.map toBeBytes).getD [] = (b.map toBeBytes).getD []) : a = b := by
  have hlen := congrArg List.length h
  cases a with
  | none =>
    cases b with
    | none => rfl
    | some v => simp [toBeBytes_length] at hlen
  | some u =>
    cases b with
    | none => simp [toBeBytes_length] at hlen
    | some v => exact congrArg some (toBeBytes_inj h)

/-- The byte strings determine every hashed field, except that an absent `meta` and an
empty one give the same. -/
theorem hashedFields_inj (h : hashedFields t m = hashedFields t' m') :
    t = t' ∧ m.payload = m'.payload ∧ m.contentTopic = m'.contentTopic ∧
      m.metadata.getD [] = m'.metadata.getD [] ∧ m.timestamp = m'.timestamp := by
  simp only [hashedFields, List.cons.injEq, and_true] at h
  obtain ⟨ht, hp, hc, hm, hts⟩ := h
  exact ⟨asBytes_inj ht, hp, asBytes_inj hc, hm, timestampBytes_inj hts⟩

theorem flatten_ne_of_one_entry {before after : List (List UInt8)} {x y : List UInt8} (h : x ≠ y) :
    (before ++ x :: after).flatten ≠ (before ++ y :: after).flatten := by
  intro he
  simp only [List.flatten_append, List.flatten_cons] at he
  exact h (List.append_cancel_right (List.append_cancel_left he))

theorem deterministicHash_eq_iff
    (hinj : Set.InjOn crates.sha256 {hashPreimage t m, hashPreimage t' m'}) :
    deterministicHash crates t m = deterministicHash crates t' m' ↔
      hashPreimage t m = hashPreimage t' m' := by
  constructor
  · intro h
    exact hinj (by simp) (by simp) h
  · intro h
    rw [deterministicHash, deterministicHash, h]

theorem wakuMessageId_of_decode {d : List UInt8} (h : crates.decode d = some m) :
    wakuMessageId crates t d = (deterministicHash crates t m).bytes := by
  simp only [wakuMessageId, h]

/-- Without collisions the hash identifies the concatenated fields. Messages that differ in
one field, or in several whose lengths do not change, have different hashes; neither the
store nor gossipsub drops one of two messages with different concatenations. -/
theorem deterministicHash_identifies (crates : Crates) (t t' : String) (m m' : WakuMessage)
    (hinj : Set.InjOn crates.sha256 {hashPreimage t m, hashPreimage t' m'})
    (hm : crates.decode (crates.encode m) = some m)
    (hm' : crates.decode (crates.encode m') = some m') :
    (deterministicHash crates t m = deterministicHash crates t' m' ↔
      hashPreimage t m = hashPreimage t' m') ∧
    (∀ before x y after, hashedFields t m = before ++ x :: after →
      hashedFields t' m' = before ++ y :: after → x ≠ y →
      deterministicHash crates t m ≠ deterministicHash crates t' m') ∧
    ((hashedFields t m).map List.length = (hashedFields t' m').map List.length →
      deterministicHash crates t m = deterministicHash crates t' m' →
      t = t' ∧ m.payload = m'.payload ∧ m.contentTopic = m'.contentTopic ∧
        m.metadata.getD [] = m'.metadata.getD [] ∧ m.timestamp = m'.timestamp) ∧
    (wakuMessageId crates t (crates.encode m) = wakuMessageId crates t' (crates.encode m') ↔
      hashPreimage t m = hashPreimage t' m') ∧
    (hashPreimage t m ≠ hashPreimage t' m' → ∀ (s : SqliteStore) (r r' : Int64),
      (deterministicHash crates t' m').bytes ∉ s.rows.map Row.messageHash →
      putRow crates t' m' r' ∈ ((s.put crates t m r).put crates t' m' r').rows) := by
  have hiff := deterministicHash_eq_iff hinj
  refine ⟨hiff, ?_, ?_, ?_, ?_⟩
  · intro before x y after hx hy hne heq
    rw [hiff, hashPreimage_eq_flatten, hashPreimage_eq_flatten, hx, hy] at heq
    exact flatten_ne_of_one_entry hne heq
  · intro hlen heq
    rw [hiff, hashPreimage_eq_flatten, hashPreimage_eq_flatten] at heq
    exact hashedFields_inj (List.eq_iff_flatten_eq.mpr ⟨heq, hlen⟩)
  · rw [wakuMessageId_of_decode hm, wakuMessageId_of_decode hm', ← hiff]
    exact ⟨MessageHash.bytes_inj, congrArg MessageHash.bytes⟩
  · intro hne s r r' hnew
    have habsent : (deterministicHash crates t' m').bytes ∉
        (s.put crates t m r).rows.map Row.messageHash := by
      rw [SqliteStore.mem_hashes_put]
      intro hmem
      obtain hold | heq := hmem
      · exact hnew hold
      · exact hne (hiff.mp (MessageHash.bytes_inj heq).symm)
    rw [SqliteStore.rows_put, if_neg habsent]
    exact List.mem_cons_self

theorem deterministicHash_identifies_sample :
    deterministicHash Crates.standard "/waku/2/rs/1/0"
        { payload := asBytes "hello", contentTopic := "/toychat/2/huilong/proto" } ≠
      deterministicHash Crates.standard "/waku/2/rs/1/0"
        { payload := asBytes "world", contentTopic := "/toychat/2/huilong/proto" } := by
  have hinj : Set.InjOn Crates.standard.sha256
      {hashPreimage "/waku/2/rs/1/0"
        { payload := asBytes "hello", contentTopic := "/toychat/2/huilong/proto" },
      hashPreimage "/waku/2/rs/1/0"
        { payload := asBytes "world", contentTopic := "/toychat/2/huilong/proto" }} :=
    Set.injOn_pair.mpr fun h => absurd h (by decide +kernel)
  exact (deterministicHash_identifies Crates.standard _ _ _ _ hinj (by decide +kernel)
    (by decide +kernel)).2.1 [asBytes "/waku/2/rs/1/0"] (asBytes "hello") (asBytes "world")
    [asBytes "/toychat/2/huilong/proto", [], []] rfl rfl (by decide +kernel)

theorem deterministicHash_boundary_moved :
    deterministicHash Crates.standard "/waku/2/rs/1/0"
        { payload := asBytes "hello/app", contentTopic := "/1/x/proto" } =
      deterministicHash Crates.standard "/waku/2/rs/1/0"
        { payload := asBytes "hello", contentTopic := "/app/1/x/proto" } ∧
    asBytes "hello/app" ≠ asBytes "hello" := by
  decide +kernel

theorem hashPreimage_pubsubTopic (s : ShardId) (m : WakuMessage) :
    ∃ rest, hashPreimage s.pubsubTopic m = 47 :: rest := by
  have hslash : asBytes "/waku/2/rs/" = 47 :: asBytes "waku/2/rs/" := by decide +kernel
  have htopic : s.pubsubTopic =
      "/waku/2/rs/" ++ toString s.clusterId ++ "/" ++ toString s.shard := rfl
  rw [hashPreimage, htopic, asBytes_append, asBytes_append, asBytes_append, hslash]
  exact ⟨_, rfl⟩

/-- The id of an undecodable payload is the id of a message exactly when the payload is that
message's concatenation of hashed fields. This overlap is never empty: on a shard topic the
concatenation starts with a byte that no protobuf key starts with. -/
theorem undecodable_id_eq_iff (crates : Crates) (s : ShardId) (m : WakuMessage) (d : List UInt8)
    (hwire : ∀ b rest, b.toNat < 128 → 6 ≤ b.toNat % 8 → crates.decode (b :: rest) = none)
    (hm : crates.decode (crates.encode m) = some m) (hd : crates.decode d = none)
    (hinj : Set.InjOn crates.sha256 {d, hashPreimage s.pubsubTopic m}) :
    (wakuMessageId crates s.pubsubTopic d = wakuMessageId crates s.pubsubTopic (crates.encode m) ↔
      d = hashPreimage s.pubsubTopic m) ∧
    crates.decode (hashPreimage s.pubsubTopic m) = none := by
  constructor
  · rw [wakuMessageId_of_decode hm, wakuMessageId, hd]
    constructor
    · intro h
      exact hinj (by simp) (by simp) (MessageHash.bytes_inj h)
    · intro h
      rw [deterministicHash, ← h]
  · obtain ⟨rest, hrest⟩ := hashPreimage_pubsubTopic s m
    rw [hrest]
    exact hwire 47 rest (by decide) (by decide)

theorem undecodable_id_sample :
    wakuMessageId Crates.standard (ShardId.pubsubTopic ⟨1, 0⟩) [255, 0, 1, 2] ≠
      wakuMessageId Crates.standard (ShardId.pubsubTopic ⟨1, 0⟩)
        (Crates.standard.encode
          { payload := asBytes "hello", contentTopic := "/toychat/2/huilong/proto" }) := by
  have hinj : Set.InjOn Crates.standard.sha256
      {[255, 0, 1, 2], hashPreimage (ShardId.pubsubTopic ⟨1, 0⟩)
        { payload := asBytes "hello", contentTopic := "/toychat/2/huilong/proto" }} :=
    Set.injOn_pair.mpr fun h => absurd h (by decide +kernel)
  have h := undecodable_id_eq_iff Crates.standard ⟨1, 0⟩ _ [255, 0, 1, 2]
    Crates.standard_decode_undefined (by decide +kernel) (by decide +kernel) hinj
  exact mt h.1.mp (by decide +kernel)

theorem undecodable_id_collides :
    Crates.standard.decode (asBytes "/waku/2/rs/1/0hello/toychat/2/huilong/proto") = none ∧
    wakuMessageId Crates.standard (ShardId.pubsubTopic ⟨1, 0⟩)
        (asBytes "/waku/2/rs/1/0hello/toychat/2/huilong/proto") =
      wakuMessageId Crates.standard (ShardId.pubsubTopic ⟨1, 0⟩)
        (Crates.standard.encode
          { payload := asBytes "hello", contentTopic := "/toychat/2/huilong/proto" }) := by
  decide +kernel

end RsWaku
