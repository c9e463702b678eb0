import Mathlib.Data.Prod.Lex
import RsWaku.Keyset
import RsWaku.Message

/-! The SQLite message store: the table, its insertion and retention statements, and the
paginated query as the generated SQL evaluates it. -/
namespace RsWaku
open Keyset

structure Row where
  messageHash : List UInt8
  pubsubTopic : String
  contentTopic : String
  payload : List UInt8
  version : Option Int64
  timestamp : Option Int64
  metadata : Option (List UInt8)
  rateLimitProof : Option (List UInt8)
  ephemeral : Option Int64
  receiverTime : Int64
  sortTime : Int64
deriving DecidableEq

def Row.key (r : Row) : Int64 ×ₗ List UInt8 := toLex (r.sortTime, r.messageHash)

/-- The table with its primary key. `put` is the only writer, so every hash has 32 bytes. SQLite
prepares no statement with more variables than its limit, 32766 unless it was built with another;
`put` has eleven. -/
structure SqliteStore where
  rows : List Row
  primary_key : (rows.map Row.messageHash).Nodup
  hash_size : ∀ r ∈ rows, r.messageHash.length = 32
  maxVariables : Nat := 32766
  put_variables : 11 ≤ maxVariables := by decide

def SqliteStore.empty : SqliteStore where
  rows := []
  primary_key := List.nodup_nil
  hash_size := by simp

def putRow (crates : Crates) (pubsubTopic : String) (msg : WakuMessage) (receiverTimeNs : Int64) :
    Row where
  messageHash := (deterministicHash crates pubsubTopic msg).bytes
  pubsubTopic := pubsubTopic
  contentTopic := msg.contentTopic
  payload := msg.payload
  version := msg.version.map fun v => v.toUInt64.toInt64
  timestamp := msg.timestamp
  metadata := msg.metadata
  rateLimitProof := msg.rateLimitProof
  ephemeral := msg.ephemeral.map fun b => if b then 1 else 0
  receiverTime := receiverTimeNs
  sortTime := msg.timestamp.getD receiverTimeNs

/-- INSERT OR IGNORE: a row whose primary key is present is dropped. -/
def SqliteStore.put (crates : Crates) (s : SqliteStore) (pubsubTopic : String) (msg : WakuMessage)
    (receiverTimeNs : Int64) : SqliteStore :=
  let row := putRow crates pubsubTopic msg receiverTimeNs
  if h : row.messageHash ∈ s.rows.map Row.messageHash then s else
    { rows := row :: s.rows
      primary_key := List.nodup_cons.mpr ⟨h, s.primary_key⟩
      hash_size := by
        intro r hr
        obtain rfl | hr := List.mem_cons.mp hr
        · exact (deterministicHash crates pubsubTopic msg).size
        · exact s.hash_size r hr
      maxVariables := s.maxVariables
      put_variables := s.put_variables }

theorem SqliteStore.rows_put (crates : Crates) (s : SqliteStore) (t : String) (m : WakuMessage)
    (r : Int64) : (s.put crates t m r).rows =
      if (deterministicHash crates t m).bytes ∈ s.rows.map Row.messageHash then s.rows
      else putRow crates t m r :: s.rows := by
  unfold SqliteStore.put
  dsimp only
  split
  case isTrue hold => exact (if_pos hold).symm
  case isFalse hnew => exact (if_neg hnew).symm

theorem SqliteStore.mem_hashes_put (crates : Crates) (s : SqliteStore) (t : String)
    (m : WakuMessage) (r : Int64) (b : List UInt8) :
    b ∈ (s.put crates t m r).rows.map Row.messageHash ↔
      b ∈ s.rows.map Row.messageHash ∨ b = (deterministicHash crates t m).bytes := by
  rw [SqliteStore.rows_put]
  split
  case isTrue hold =>
    rw [or_iff_left_of_imp]
    intro hb
    rwa [hb]
  case isFalse => rw [List.map_cons, List.mem_cons, or_comm, putRow]

def SqliteStore.delete (s : SqliteStore) (p : Row → Bool) : SqliteStore × UInt64 where
  fst :=
    { rows := s.rows.filter fun r => !p r
      primary_key := List.Nodup.sublist ((List.filter_sublist).map _) s.primary_key
      hash_size := fun r hr => s.hash_size r (List.mem_of_mem_filter hr)
      maxVariables := s.maxVariables
      put_variables := s.put_variables }
  snd := UInt64.ofNat (s.rows.countP p)

def SqliteStore.deleteOlderThan (s : SqliteStore) (cutoffNs : Int64) : SqliteStore × UInt64 :=
  s.delete fun r => r.sortTime < cutoffNs

/-- LIMIT -1 OFFSET n: a negative offset is zero. -/
def sqlOffset {α : Type*} (n : Int64) (l : List α) : List α := l.drop n.toInt.toNat

/-- Delete all but the first `max` rows in descending order of the sort key. -/
def SqliteStore.enforceCapacity (s : SqliteStore) (max : UInt64) : SqliteStore × UInt64 :=
  let doomed := (sqlOffset max.toInt64 (listing Row.key false s.rows)).map Row.messageHash
  s.delete fun r => r.messageHash ∈ doomed

inductive StoreError where
  | db (message : String)
  | corrupt (message : String)
deriving DecidableEq

def tooManyVariables : StoreError :=
  .db "error returned from database: (code: 1) too many SQL variables"

structure StoredMessage where
  hash : MessageHash
  pubsubTopic : String
  message : Option WakuMessage
  receiverTimeNs : Int64
deriving DecidableEq

structure StoreQuery where
  pubsubTopic : Option String := none
  contentTopics : List String := []
  timeStartNs : Option Int64 := none
  timeEndNs : Option Int64 := none
  messageHashes : List MessageHash := []
  includeData : Bool := true
  pageSize : UInt64 := 20
  forward : Bool := true
  cursor : Option MessageHash := none

structure QueryResult where
  messages : List StoredMessage
  nextCursor : Option MessageHash

def rowToMessage (row : Row) : WakuMessage where
  payload := row.payload
  contentTopic := row.contentTopic
  version := row.version.map fun v => v.toUInt64.toUInt32
  timestamp := row.timestamp
  metadata := row.metadata
  rateLimitProof := row.rateLimitProof
  ephemeral := row.ephemeral.map fun v => v != 0

def rowToHash (row : Row) : Except StoreError MessageHash :=
  match MessageHash.ofBytes row.messageHash with
  | some h => .ok h
  | none => .error (.corrupt ("message_hash is " ++ toString row.messageHash.length ++ " bytes"))

def rowToStored (includeData : Bool) (row : Row) : Except StoreError StoredMessage := do
  let hash ← rowToHash row
  return { hash, pubsubTopic := row.pubsubTopic,
           message := if includeData then some (rowToMessage row) else none,
           receiverTimeNs := row.receiverTime }

def SqliteStore.find (s : SqliteStore) (hash : MessageHash) : Option Row :=
  s.rows.find? fun r => r.messageHash = hash.bytes

def SqliteStore.get (s : SqliteStore) (hash : MessageHash) : Option WakuMessage :=
  (s.find hash).map rowToMessage

/-- `SELECT message_hash FROM messages WHERE message_hash IN (..)`, in the order of the table. -/
def SqliteStore.exists (s : SqliteStore) (hashes : List MessageHash) :
    Except StoreError (List MessageHash) :=
  if hashes.isEmpty then .ok []
  else if s.maxVariables < hashes.length then .error tooManyVariables
  else (s.rows.filter fun r => r.messageHash ∈ hashes.map MessageHash.bytes).mapM rowToHash

def SqliteStore.cursorSortTime (s : SqliteStore) (hash : MessageHash) : Option Int64 :=
  (s.find hash).map Row.sortTime

def InTimeRange (start stop : Option Int64) (t : Int64) : Prop :=
  (∀ a ∈ start, a ≤ t) ∧ ∀ b ∈ stop, t < b

-- decided on the two options: the search over all of Int64 would never end
instance (start stop : Option Int64) (t : Int64) : Decidable (InTimeRange start stop t) :=
  @instDecidableAnd _ _ (Option.decidableForallMem _) (Option.decidableForallMem _)

/-- The conjuncts before the cursor: an empty list of topics or hashes adds none. -/
def StoreQuery.Filters (q : StoreQuery) (r : Row) : Prop :=
  (∀ pt ∈ q.pubsubTopic, r.pubsubTopic = pt) ∧
  (q.contentTopics ≠ [] → r.contentTopic ∈ q.contentTopics) ∧
  (q.messageHashes ≠ [] → r.messageHash ∈ q.messageHashes.map MessageHash.bytes) ∧
  InTimeRange q.timeStartNs q.timeEndNs r.sortTime

instance (q : StoreQuery) : DecidablePred q.Filters := fun r =>
  inferInstanceAs (Decidable
    ((∀ pt ∈ q.pubsubTopic, r.pubsubTopic = pt) ∧
    (q.contentTopics ≠ [] → r.contentTopic ∈ q.contentTopics) ∧
    (q.messageHashes ≠ [] → r.messageHash ∈ q.messageHashes.map MessageHash.bytes) ∧
    InTimeRange q.timeStartNs q.timeEndNs r.sortTime))

/-- `AND (sort_time cmp ct OR (sort_time = ct AND message_hash cmp ch))`. -/
def KeysetClause (forward : Bool) (cursorKey : Option (Int64 × List UInt8)) (r : Row) : Prop :=
  ∀ k ∈ cursorKey, if forward then k.1 < r.sortTime ∨ (r.sortTime = k.1 ∧ k.2 < r.messageHash)
    else r.sortTime < k.1 ∨ (r.sortTime = k.1 ∧ r.messageHash < k.2)

instance (forward : Bool) (cursorKey : Option (Int64 × List UInt8)) :
    DecidablePred (KeysetClause forward cursorKey) := fun r =>
  inferInstanceAs (Decidable (∀ k ∈ cursorKey,
    if forward then k.1 < r.sortTime ∨ (r.sortTime = k.1 ∧ k.2 < r.messageHash)
    else r.sortTime < k.1 ∨ (r.sortTime = k.1 ∧ r.messageHash < k.2)))

def SqliteStore.cursorKey (s : SqliteStore) (q : StoreQuery) : Option (Int64 × List UInt8) :=
  q.cursor.bind fun c => (s.cursorSortTime c).map fun t => (t, c.bytes)

def SqliteStore.candidates (s : SqliteStore) (q : StoreQuery) : List Row :=
  listing Row.key q.forward
    (s.rows.filter fun r => q.Filters r ∧ KeysetClause q.forward (s.cursorKey q) r)

/-- LIMIT n: a negative limit is no limit. -/
def sqlLimit {α : Type*} (n : Int64) (l : List α) : List α :=
  if n < 0 then l else l.take n.toInt.toNat

def StoreQuery.limit (q : StoreQuery) : Int64 := (max q.pageSize 1).toInt64

/-- The fetched rows. The addition wraps, as in a release build. -/
def SqliteStore.fetchAll (s : SqliteStore) (q : StoreQuery) : List Row :=
  sqlLimit (q.limit + 1) (s.candidates q)

def SqliteStore.pageRows (s : SqliteStore) (q : StoreQuery) : List Row :=
  (s.fetchAll q).take (min (s.fetchAll q).length q.limit.toUInt64.toNat)

def SqliteStore.hasMore (s : SqliteStore) (q : StoreQuery) : Bool :=
  q.limit < Int64.ofNat (s.fetchAll q).length

/-- The values that the statement binds, without those of the keyset clause. -/
def StoreQuery.boundVariables (q : StoreQuery) : Nat :=
  q.pubsubTopic.toList.length + q.contentTopics.length + q.messageHashes.length +
    q.timeStartNs.toList.length + q.timeEndNs.toList.length + 1

/-- The keyset clause binds three values. -/
def SqliteStore.Accepts (s : SqliteStore) (q : StoreQuery) : Prop :=
  q.boundVariables + 3 * (s.cursorKey q).toList.length ≤ s.maxVariables

instance SqliteStore.decidableAccepts (s : SqliteStore) (q : StoreQuery) :
    Decidable (s.Accepts q) :=
  inferInstanceAs
    (Decidable (q.boundVariables + 3 * (s.cursorKey q).toList.length ≤ s.maxVariables))

@[irreducible]
def SqliteStore.query (s : SqliteStore) (q : StoreQuery) : Except StoreError QueryResult :=
  if s.Accepts q then do
    let messages ← (s.pageRows q).mapM (rowToStored q.includeData)
    return { messages, nextCursor := if s.hasMore q then messages.getLast?.map (·.hash) else none }
  else .error tooManyVariables

end RsWaku
