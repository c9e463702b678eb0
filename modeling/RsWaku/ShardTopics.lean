import RsWaku.Relay
import RsWaku.Text

/-! The texts of pubsub topics: which strings the parser takes to a shard. -/
namespace RsWaku

def numeral (plus : Bool) (zeros : Nat) (n : UInt16) : String :=
  (if plus then "+" else "") ++ String.ofList (List.replicate zeros '0') ++ toString n

def ShardId.spelling (s : ShardId) (plus plus' : Bool) (zeros zeros' : Nat) : String :=
  "/waku/2/rs/" ++ numeral plus zeros s.clusterId ++ "/" ++ numeral plus' zeros' s.shard

theorem numeral_plain (n : UInt16) : numeral false 0 n = toString n := by simp [numeral]

theorem toList_numeral (plus : Bool) (zeros : Nat) (n : UInt16) :
    (numeral plus zeros n).toList = (if plus then ['+'] else []) ++
      (List.replicate zeros '0' ++ Nat.toDigits 10 n.toNat) := by
  have hdigits : (toString n).toList = Nat.toDigits 10 n.toNat := Nat.toList_repr
  rw [numeral, String.toList_append, String.toList_append, String.toList_ofList, hdigits,
    List.append_assoc]
  cases plus <;> rfl

theorem u16_digits_iff {ds : List Char} {n : UInt16} :
    ((ds ≠ [] ∧ ds.all Char.isDigit ∧ Nat.ofDigitChars 10 ds 0 < 65536) ∧
      UInt16.ofNat (Nat.ofDigitChars 10 ds 0) = n) ↔
      ∃ zeros, ds = List.replicate zeros '0' ++ Nat.toDigits 10 n.toNat := by
  rw [← Text.digits_iff, List.all_eq_true]
  constructor
  · rintro ⟨⟨hne, hdigits, hlt⟩, rfl⟩
    exact ⟨hne, hdigits, (UInt16.toNat_ofNat_of_lt hlt).symm⟩
  · intro ⟨hne, hdigits, hvalue⟩
    rw [hvalue]
    exact ⟨⟨hne, hdigits, n.toNat_lt⟩, UInt16.ofNat_toNat⟩

theorem isDigit_of_mem_numeral {n : UInt16} {zeros : Nat} {c : Char}
    (h : c ∈ List.replicate zeros '0' ++ Nat.toDigits 10 n.toNat) : c.isDigit = true :=
  (Text.digits_iff.mpr ⟨zeros, rfl⟩).2.1 c h

theorem parseU16_eq_some {text : String} {n : UInt16} :
    parseU16 text.toList = some n ↔ ∃ plus zeros, text = numeral plus zeros n := by
  simp only [← String.toList_inj, toList_numeral]
  rw [parseU16.eq_def, Option.ite_none_right_eq_some, Option.some_inj, u16_digits_iff]
  split
  case h_1 rest htext =>
    rw [htext]
    constructor
    · intro ⟨zeros, hrest⟩
      exact ⟨true, zeros, by rw [hrest]; rfl⟩
    · intro ⟨plus, zeros, hnumeral⟩
      cases plus with
      | true => exact ⟨zeros, (List.cons.inj hnumeral).2⟩
      | false =>
        have hplus : '+' ∈ List.replicate zeros '0' ++ Nat.toDigits 10 n.toNat := by
          rw [show List.replicate zeros '0' ++ Nat.toDigits 10 n.toNat = '+' :: rest from
            hnumeral.symm]
          exact List.mem_cons_self
        cases isDigit_of_mem_numeral hplus
  case h_2 hplus =>
    constructor
    · intro ⟨zeros, htext⟩
      exact ⟨false, zeros, htext⟩
    · intro ⟨plus, zeros, htext⟩
      cases plus with
      | true => exact absurd htext (hplus _)
      | false => exact ⟨zeros, htext⟩

theorem slash_not_mem_numeral (plus : Bool) (zeros : Nat) (n : UInt16) :
    '/' ∉ (numeral plus zeros n).toList := by
  intro hmem
  rw [toList_numeral, List.mem_append] at hmem
  obtain hsign | hdigit := hmem
  · cases plus <;> simp at hsign
  · cases isDigit_of_mem_numeral hdigit

theorem splitOnce_eq_some {sep : Char} {cs a b : List Char} :
    splitOnce sep cs = some (a, b) ↔ cs = a ++ sep :: b ∧ sep ∉ a := by
  induction cs generalizing a with
  | nil => simp [splitOnce]
  | cons c cs ih =>
    rw [splitOnce]
    split
    case isTrue hsep =>
      cases a with
      | nil => simp [hsep]
      | cons x a => simp +contextual [hsep]
    case isFalse hsep =>
      cases a with
      | nil => simp [hsep]
      | cons x a =>
        have hmap : (splitOnce sep cs).map (fun ab => (c :: ab.1, ab.2)) = some (x :: a, b) ↔
            c = x ∧ splitOnce sep cs = some (a, b) := by
          cases splitOnce sep cs with
          | none => simp
          | some ab => simp [Prod.ext_iff, and_assoc]
        rw [hmap, ih, List.cons_append, List.cons.injEq, List.mem_cons, not_or, and_assoc]
        refine and_congr_right fun hx => and_congr_right fun _ => ?_
        rw [← hx, and_iff_right (Ne.symm hsep)]

theorem dropPrefix_eq_some {l p rest : List Char} :
    l.dropPrefix? p = some rest ↔ l = p ++ rest := by
  simp [List.dropPrefix?_eq_some_iff]

theorem ShardId.parse_eq_ok {t : String} {s : ShardId} :
    ShardId.parse t = .ok s ↔ ∃ c d : String, t = "/waku/2/rs/" ++ c ++ "/" ++ d ∧
      '/' ∉ c.toList ∧ parseU16 c.toList = some s.clusterId ∧ parseU16 d.toList = some s.shard := by
  have htext (c d : String) : ("/waku/2/rs/" ++ c ++ "/" ++ d).toList =
      "/waku/2/rs/".toList ++ (c.toList ++ '/' :: d.toList) := by
    rw [String.toList_append, String.toList_append, String.toList_append, List.append_assoc,
      List.append_assoc]
    rfl
  constructor
  · intro h
    unfold ShardId.parse at h
    split at h
    case h_1 => cases h
    case h_2 rest hrest =>
      split at h
      case h_1 => cases h
      case h_2 c d hsplit =>
        split at h
        case h_1 clusterId shard hc hd =>
          cases h
          obtain ⟨hcut, hslash⟩ := splitOnce_eq_some.mp hsplit
          refine ⟨String.ofList c, String.ofList d, String.toList_inj.mp ?_, ?_⟩
          · rw [dropPrefix_eq_some.mp hrest, hcut, htext, @String.toList_ofList c,
              @String.toList_ofList d]
          · rw [String.toList_ofList, String.toList_ofList]
            exact ⟨hslash, hc, hd⟩
        case h_2 => cases h
  · rintro ⟨c, d, rfl, hslash, hc, hd⟩
    have hrest := dropPrefix_eq_some.mpr (htext c d)
    have hsplit : splitOnce '/' (c.toList ++ '/' :: d.toList) = some (c.toList, d.toList) :=
      splitOnce_eq_some.mpr ⟨rfl, hslash⟩
    rw [ShardId.parse, hrest]
    dsimp only
    rw [hsplit]
    dsimp only
    rw [hc, hd]

theorem ShardId.parse_pubsubTopic (s : ShardId) : ShardId.parse s.pubsubTopic = .ok s := by
  have hslash := slash_not_mem_numeral false 0 s.clusterId
  rw [numeral_plain] at hslash
  exact ShardId.parse_eq_ok.mpr ⟨toString s.clusterId, toString s.shard, rfl, hslash,
    parseU16_eq_some.mpr ⟨false, 0, (numeral_plain _).symm⟩,
    parseU16_eq_some.mpr ⟨false, 0, (numeral_plain _).symm⟩⟩

/-- A topic parses to a shard exactly when it is the topic of that shard, up to plus signs and
leading zeros of the two numbers. -/
theorem pubsub_topic_spellings (t : String) (s : ShardId) :
    (ShardId.parse t = .ok s ↔ ∃ plus plus' zeros zeros', t = s.spelling plus plus' zeros zeros') ∧
      s.pubsubTopic = s.spelling false false 0 0 ∧ ShardId.parse s.pubsubTopic = .ok s := by
  have hspelling (t : String) : ShardId.parse t = .ok s ↔
      ∃ plus plus' zeros zeros', t = s.spelling plus plus' zeros zeros' := by
    rw [ShardId.parse_eq_ok]
    constructor
    · rintro ⟨c, d, rfl, -, hc, hd⟩
      obtain ⟨plus, zeros, rfl⟩ := parseU16_eq_some.mp hc
      obtain ⟨plus', zeros', rfl⟩ := parseU16_eq_some.mp hd
      exact ⟨plus, plus', zeros, zeros', rfl⟩
    · rintro ⟨plus, plus', zeros, zeros', rfl⟩
      exact ⟨_, _, rfl, slash_not_mem_numeral plus zeros s.clusterId,
        parseU16_eq_some.mpr ⟨plus, zeros, rfl⟩, parseU16_eq_some.mpr ⟨plus', zeros', rfl⟩⟩
  have hpubsub : s.pubsubTopic = s.spelling false false 0 0 := by
    change _ = "/waku/2/rs/" ++ numeral false 0 s.clusterId ++ "/" ++ numeral false 0 s.shard
    rw [numeral_plain, numeral_plain]
    rfl
  exact ⟨hspelling t, hpubsub, (hspelling _).mpr ⟨_, _, _, _, hpubsub⟩⟩

theorem pubsub_topic_second_spelling :
    ShardId.parse "/waku/2/rs/+1/0" = .ok ⟨1, 0⟩ ∧ ShardId.parse "/waku/2/rs/01/0" = .ok ⟨1, 0⟩ ∧
    "/waku/2/rs/+1/0" ≠ ShardId.pubsubTopic ⟨1, 0⟩ ∧
    "/waku/2/rs/01/0" ≠ ShardId.pubsubTopic ⟨1, 0⟩ := by
  decide +kernel

end RsWaku
