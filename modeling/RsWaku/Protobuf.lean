import RsWaku.Wire

/-! Message types on the wire: the fields that a message is written as, how one field that was
read is merged into a message, and when reading undoes writing. -/
namespace RsWaku.Protobuf
open Wire
variable {α β : Type}

def plain [DecidableEq β] (default : β) (write : β → Field) (x : β) : List Field :=
  if x = default then [] else [write x]

def optional (write : β → Field) (x : Option β) : List Field := (x.map write).toList

def repeated (write : β → Field) (xs : List β) : List Field := xs.map write

structure Schema (α : Type) where
  default : α
  fields : α → List Field
  merge : α → Field → Option α

def Schema.encode (s : Schema α) (a : α) : List UInt8 := encodeFields (s.fields a)

def Schema.mergeBytes (s : Schema α) (a : α) (bytes : List UInt8) : Option α :=
  (decodeFields bytes).bind fun fs => fs.foldlM s.merge a

def Schema.decode (s : Schema α) (bytes : List UInt8) : Option α := s.mergeBytes s.default bytes

section Merges
variable {s : Schema α} {a b c : α}

def Schema.Merges (s : Schema α) (fs : List Field) (a b : α) : Prop := fs.foldlM s.merge a = some b

theorem Schema.Merges.append {fs gs : List Field} (hf : s.Merges fs a b) (hg : s.Merges gs b c) :
    s.Merges (fs ++ gs) a c := by
  rw [Schema.Merges, List.foldlM_append, hf]
  exact hg

theorem merges_singleton {f : Field} : s.Merges [f] a b ↔ s.merge a f = some b := by
  simp [Schema.Merges]

/- In the next three lemmas `hold` is the message as a function of the field that is read. -/
theorem merges_plain (s : Schema α) [DecidableEq β] {default x : β} {write : β → Field}
    (hold : β → α) (h : s.merge (hold default) (write x) = some (hold x)) :
    s.Merges (plain default write x) (hold default) (hold x) := by
  rw [plain]
  split
  case isTrue hx => rw [hx]; rfl
  case isFalse => exact merges_singleton.mpr h

theorem merges_optional (s : Schema α) {x : Option β} {write : β → Field} (hold : Option β → α)
    (h : ∀ y ∈ x, s.merge (hold none) (write y) = some (hold (some y))) :
    s.Merges (optional write x) (hold none) (hold x) := by
  cases x with
  | none => rfl
  | some y => exact merges_singleton.mpr (h y rfl)

theorem merges_repeated (s : Schema α) {write : β → Field} {xs : List β} (hold : List β → α)
    (h : ∀ x ∈ xs, ∀ seen, s.merge (hold seen) (write x) = some (hold (seen ++ [x]))) :
    s.Merges (repeated write xs) (hold []) (hold xs) := by
  suffices hall : ∀ seen, s.Merges (repeated write xs) (hold seen) (hold (seen ++ xs)) from hall []
  induction xs with
  | nil =>
    intro seen
    rw [List.append_nil]
    rfl
  | cons x xs ih =>
    intro seen
    have hx : s.Merges [write x] (hold seen) (hold (seen ++ [x])) :=
      merges_singleton.mpr (h x (by simp) seen)
    have hxs := ih (fun y hy => h y (List.mem_cons_of_mem x hy)) (seen ++ [x])
    rw [List.append_assoc, List.singleton_append] at hxs
    exact hx.append hxs

end Merges

def Written (f : Field) : Prop :=
  1 ≤ f.tag ∧ f.tag < 2 ^ 29 ∧ ((∃ v < 2 ^ 64, f.value = .varint v) ∨ ∃ b, f.value = .len b)

theorem written_len {tag : Nat} (h : 1 ≤ tag ∧ tag < 2 ^ 29) (bytes : List UInt8) :
    Written ⟨tag, .len bytes⟩ := ⟨h.1, h.2, .inr ⟨bytes, rfl⟩⟩

theorem written_varint {tag v : Nat} (h : 1 ≤ tag ∧ tag < 2 ^ 29) (hv : v < 2 ^ 64) :
    Written ⟨tag, .varint v⟩ := ⟨h.1, h.2, .inl ⟨v, hv, rfl⟩⟩

section Written
variable {write : β → Field} (h : ∀ x, Written (write x))
include h

theorem written_plain [DecidableEq β] (default x : β) :
    ∀ f ∈ plain default write x, Written f := by
  intro f hf
  rw [plain] at hf
  split at hf
  · cases hf
  · cases List.mem_singleton.mp hf
    exact h x

theorem written_optional (x : Option β) : ∀ f ∈ optional write x, Written f := by
  intro f hf
  obtain ⟨y, -, rfl⟩ := Option.map_eq_some_iff.mp (Option.mem_toList.mp hf)
  exact h y

theorem written_repeated (xs : List β) : ∀ f ∈ repeated write xs, Written f := by
  intro f hf
  obtain ⟨x, -, rfl⟩ := List.mem_map.mp hf
  exact h x

end Written

theorem length_encodeVarint_le (v : Nat) : (encodeVarint v).length ≤ 10 := by
  suffices hall : ∀ k v, (varintDigits k v).length ≤ k from hall 10 v
  intro k
  induction k with
  | zero => simp [varintDigits]
  | succ k ih =>
    intro v
    rw [varintDigits]
    split
    · simp
    · simpa using ih _

theorem length_encodeFields_append (fs gs : List Field) :
    (encodeFields (fs ++ gs)).length = (encodeFields fs).length + (encodeFields gs).length := by
  simp [encodeFields]

def lenFieldSize (tag n : Nat) : Nat :=
  (encodeVarint (tag * 8 + 2)).length + (encodeVarint n).length + n

theorem length_encodeField_len (tag : Nat) (bytes : List UInt8) :
    (encodeField ⟨tag, .len bytes⟩).length = lenFieldSize tag bytes.length := by
  simp [encodeField, Value.encode, Value.wireType, lenFieldSize, Nat.add_assoc]

theorem le_lenFieldSize (tag n : Nat) : n + 2 ≤ lenFieldSize tag n := by
  have hkey := List.length_pos_iff.mpr (encodeVarint_ne_nil (tag * 8 + 2))
  have hlen := List.length_pos_iff.mpr (encodeVarint_ne_nil n)
  rw [lenFieldSize]
  omega

theorem lenFieldSize_le (tag n : Nat) : lenFieldSize tag n ≤ 20 + n := by
  have hkey := length_encodeVarint_le (tag * 8 + 2)
  have hlen := length_encodeVarint_le n
  rw [lenFieldSize]
  omega

theorem length_plain [DecidableEq β] {tag : Nat} {bytes : β → List UInt8} (default x : β) :
    (encodeFields (plain default (fun y => ⟨tag, .len (bytes y)⟩) x)).length =
      if x = default then 0 else lenFieldSize tag (bytes x).length := by
  rw [plain]
  split
  · rfl
  · rw [encodeFields, List.flatMap_singleton, length_encodeField_len]

theorem length_optional {tag : Nat} {bytes : β → List UInt8} (x : Option β) :
    (encodeFields (optional (fun y => ⟨tag, .len (bytes y)⟩) x)).length =
      (x.map fun y => lenFieldSize tag (bytes y).length).getD 0 := by
  cases x with
  | none => rfl
  | some y => simpa [encodeFields, optional] using length_encodeField_len tag (bytes y)

theorem length_repeated {tag : Nat} {bytes : β → List UInt8} (xs : List β) :
    (encodeFields (repeated (fun x => ⟨tag, .len (bytes x)⟩) xs)).length =
      (xs.map fun x => lenFieldSize tag (bytes x).length).sum := by
  induction xs with
  | nil => rfl
  | cons x xs ih =>
    rw [List.map_cons, List.sum_cons, ← ih, ← length_encodeField_len]
    exact List.length_append

theorem length_encodeField_le {fs : List Field} {f : Field} (hf : f ∈ fs) :
    (encodeField f).length ≤ (encodeFields fs).length := by
  obtain ⟨before, after, rfl⟩ := List.append_of_mem hf
  simp only [encodeFields, List.flatMap_append, List.flatMap_cons, List.length_append]
  omega

theorem length_le_of_len_mem {fs : List Field} {tag : Nat} {bytes : List UInt8}
    (hf : ⟨tag, .len bytes⟩ ∈ fs) : bytes.length ≤ (encodeFields fs).length := by
  have hle := length_encodeField_le hf
  rw [length_encodeField_len, lenFieldSize] at hle
  omega

/-- No length prefix of an encoding below 2^64 bytes is truncated. -/
theorem wellFormed_of_length {fs : List Field} (hlen : (encodeFields fs).length < 2 ^ 64)
    (h : ∀ f ∈ fs, Written f) : ∀ f ∈ fs, f.WellFormed := by
  intro ⟨tag, value⟩ hf
  obtain ⟨htag, htag', ⟨v, hv, hval⟩ | ⟨b, hval⟩⟩ := h _ hf
  · cases hval
    exact ⟨htag, htag', hv⟩
  · cases hval
    exact ⟨htag, htag', Nat.lt_of_le_of_lt (length_le_of_len_mem hf) hlen⟩

theorem Schema.decode_encode {s : Schema α} {a : α} (hlen : (s.encode a).length < 2 ^ 64)
    (hwritten : ∀ f ∈ s.fields a, Written f) (hmerges : s.Merges (s.fields a) s.default a) :
    s.decode (s.encode a) = some a := by
  rw [Schema.decode, Schema.mergeBytes, Schema.encode,
    decodeFields_encodeFields _ (wellFormed_of_length hlen hwritten)]
  exact hmerges

end RsWaku.Protobuf
