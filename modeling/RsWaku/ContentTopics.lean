import RsWaku.Control
import RsWaku.Relay
import RsWaku.Text

/-! Content topics: the parser, the printer and the texts that the two agree on, and the shard of
a topic. -/
namespace RsWaku
open Bytes Control

structure ContentTopic where
  application : String
  version : String
  name : String
  encoding : String
deriving DecidableEq

namespace ContentTopic

def parse (s : String) : Except CoreError ContentTopic := do
  let rest ← okOr (Text.stripPrefix s "/") (.invalidContentTopic s)
  let parts := Text.split rest '/'
  match parts with
  | [application, version, name, encoding] =>
    if parts.any (· = "") then .error (.invalidContentTopic s)
    else .ok { application, version, name, encoding }
  | _ => .error (.invalidContentTopic s)

def toString (ct : ContentTopic) : String :=
  "/" ++ ct.application ++ "/" ++ ct.version ++ "/" ++ ct.name ++ "/" ++ ct.encoding

def segments (ct : ContentTopic) : List String :=
  [ct.application, ct.version, ct.name, ct.encoding]

theorem toString_eq_iff {rest : String} {ct : ContentTopic} :
    "/" ++ rest = ct.toString ↔
      rest.toList = ['/'].intercalate (ct.segments.map String.toList) := by
  rw [← String.toList_inj]
  simp [toString, segments, List.intercalate]

theorem split_eq_segments {rest : String} {ct : ContentTopic} :
    Text.split rest '/' = ct.segments ↔
      "/" ++ rest = ct.toString ∧ ∀ p ∈ ct.segments, '/' ∉ p.toList := by
  rw [Text.split_eq_iff, toString_eq_iff, and_comm (b := rest.toList = _)]
  exact and_iff_right (by simp [segments])

theorem parse_eq_ok {s : String} {ct : ContentTopic} :
    parse s = .ok ct ↔ s = ct.toString ∧ ∀ p ∈ ct.segments, p ≠ "" ∧ '/' ∉ p.toList := by
  rw [parse, bind_eq_ok]
  simp only [okOr_eq_ok, Text.stripPrefix_eq_some]
  constructor
  · intro ⟨rest, hs, h⟩
    split at h
    case h_1 application version name encoding hsplit =>
      split at h
      case isTrue => cases h
      case isFalse hempty =>
        cases h
        obtain ⟨htext, hslash⟩ :=
          (@split_eq_segments rest ⟨application, version, name, encoding⟩).mp hsplit
        refine ⟨hs.trans htext, fun p hp => ⟨fun hp' => hempty ?_, hslash p hp⟩⟩
        rw [hsplit, List.any_eq_true]
        exact ⟨p, hp, decide_eq_true hp'⟩
    case h_2 => cases h
  · intro ⟨hs, hsegments⟩
    have hrest : ∃ rest, "/" ++ rest = ct.toString := by
      simp only [toString, String.append_assoc]
      exact ⟨_, rfl⟩
    obtain ⟨rest, hrest⟩ := hrest
    have hsplit := split_eq_segments.mpr ⟨hrest, fun p hp => (hsegments p hp).2⟩
    have hempty : ¬ct.segments.any (· = "") := by
      rw [List.any_eq_true]
      intro ⟨p, hp, hp'⟩
      exact (hsegments p hp).1 (of_decide_eq_true hp')
    refine ⟨rest, hs.trans hrest.symm, ?_⟩
    rw [hsplit]
    dsimp only [segments]
    exact if_neg hempty

end ContentTopic

/-- The shard of a topic, from the last eight bytes of a hash; none where the remainder by a count
of zero panics. -/
def autoshard (crates : Crates) (clusterId : UInt16) (ct : ContentTopic) (shardCount : UInt16) :
    Option ShardId :=
  let digest := (crates.sha256 (asBytes ct.application ++ asBytes ct.version)).bytes
  let value := (digest.drop 24).foldl (fun value b => value * 256 + b.toNat) 0
  if shardCount = 0 then none
  else some ⟨clusterId, UInt16.ofNat (value % shardCount.toNat)⟩

/-- Parser and printer are inverse on the texts of four segments that are not empty and have no
slash in them. -/
theorem content_topic_grammar (s : String) (ct : ContentTopic) :
    ((∃ parsed, ContentTopic.parse s = .ok parsed) ↔
      ∃ a v n e, s = "/" ++ a ++ "/" ++ v ++ "/" ++ n ++ "/" ++ e ∧
        ∀ p ∈ [a, v, n, e], p ≠ "" ∧ '/' ∉ p.toList) ∧
    (∀ parsed, ContentTopic.parse s = .ok parsed → parsed.toString = s) ∧
    (ContentTopic.parse ct.toString = .ok ct ↔
      ∀ p ∈ [ct.application, ct.version, ct.name, ct.encoding], p ≠ "" ∧ '/' ∉ p.toList) := by
  refine ⟨?_, ?_, ?_⟩
  · constructor
    · intro ⟨parsed, h⟩
      obtain ⟨hs, hsegments⟩ := ContentTopic.parse_eq_ok.mp h
      exact ⟨_, _, _, _, hs, hsegments⟩
    · intro ⟨a, v, n, e, hs, hsegments⟩
      exact ⟨⟨a, v, n, e⟩, ContentTopic.parse_eq_ok.mpr ⟨hs, hsegments⟩⟩
  · intro parsed h
    exact (ContentTopic.parse_eq_ok.mp h).1.symm
  · rw [ContentTopic.parse_eq_ok, and_iff_right rfl]
    rfl

end RsWaku
