import RsWaku.Filter

/-! Filter pushes as a function of the request history: a peer is pushed to exactly once if one
of its subscriptions is live, and only its own requests count. -/
namespace RsWaku
open Runs

def registryAfter (requests : List (PeerId × FilterSubscribeRequest)) : FilterRegistry :=
  requests.foldl (fun filters e => (applyFilterRequest filters e.1 e.2).1) ∅

def pushesTo (p : PeerId) (filters : FilterRegistry) (topic : String) (msg : WakuMessage) :
    List (PeerId × MessagePush) :=
  (pushFilterMatches filters topic msg).filter fun push => push.1 = p

theorem pushesTo_eq (p : PeerId) (filters : FilterRegistry) (topic : String) (msg : WakuMessage) :
    pushesTo p filters topic msg =
      if ∃ s ∈ Maps.read filters [] p, s.matches topic msg.contentTopic = true then
        [(p, ⟨some msg, some topic⟩)] else [] := by
  set peers := (pushFilterMatches filters topic msg).map Prod.fst with hpeers
  have hpushes : pushFilterMatches filters topic msg =
      peers.map fun q => (q, ⟨some msg, some topic⟩) := by
    simp [hpeers, pushFilterMatches, Function.comp_def]
  have hnodup : peers.Nodup := by
    rw [hpeers, pushFilterMatches, List.map_map]
    exact List.Nodup.sublist (List.filter_sublist.map _) filters.keys_nodup
  have hfilter : pushesTo p filters topic msg =
      (List.replicate (peers.count p) p).map fun q => (q, ⟨some msg, some topic⟩) := by
    rw [pushesTo, hpushes, List.filter_map, ← List.filter_eq]
    simp [Function.comp_def, eq_comm]
  have hmatch : p ∈ peers ↔ _ := mem_pushFilterMatches filters topic msg p
  rw [hfilter]
  split
  case isTrue h =>
    rw [List.count_eq_one_of_mem hnodup (hmatch.mpr h), List.replicate_one, List.map_singleton]
  case isFalse h =>
    rw [List.count_eq_zero_of_not_mem (mt hmatch.mp h), List.replicate_zero, List.map_nil]

def FilterSubscribeRequest.Removes (req : FilterSubscribeRequest) (sub : FilterSub) : Prop :=
  req.filterSubscribeType = SubscribeType.unsubscribe ∧ sub.pubsubTopic = req.pubsubTopic ∧
      sub.contentTopics = req.contentTopics ∨
    req.filterSubscribeType = SubscribeType.unsubscribeAll

instance (req : FilterSubscribeRequest) (sub : FilterSub) : Decidable (req.Removes sub) :=
  inferInstanceAs (Decidable (_ ∨ _))

theorem FilterSubscribeRequest.Removes.not_subscribe {req : FilterSubscribeRequest}
    {sub : FilterSub} (h : req.Removes sub) :
    req.filterSubscribeType ≠ SubscribeType.subscribe := by
  obtain ⟨hu, -⟩ | ha := h
  · rw [hu]
    decide
  · rw [ha]
    decide

theorem mem_nextSubs (subs : List FilterSub) (req : FilterSubscribeRequest) (sub : FilterSub) :
    sub ∈ nextSubs subs req ↔ sub ∈ subs ∧ ¬req.Removes sub ∨
      req.filterSubscribeType = SubscribeType.subscribe ∧
        sub = ⟨req.pubsubTopic, req.contentTopics⟩ := by
  unfold nextSubs FilterSubscribeRequest.Removes
  -- the four cases of the request type exclude each other
  split
  case isTrue hs =>
    have hu : ¬req.filterSubscribeType = SubscribeType.unsubscribe := by rw [hs]; decide
    have ha : ¬req.filterSubscribeType = SubscribeType.unsubscribeAll := by rw [hs]; decide
    simp [eq_true hs, eq_false hu, eq_false ha]
  case isFalse hs =>
    split
    case isTrue hu =>
      have ha : ¬req.filterSubscribeType = SubscribeType.unsubscribeAll := by rw [hu]; decide
      simp [eq_false hs, eq_true hu, eq_false ha, imp_iff_not_or]
    case isFalse hu =>
      split
      case isTrue ha => simp [eq_false hs, eq_true ha]
      case isFalse ha => simp [eq_false hs, eq_false hu, eq_false ha]

theorem mem_registryAfter (requests : List (PeerId × FilterSubscribeRequest)) (p : PeerId)
    (sub : FilterSub) :
    sub ∈ Maps.read (registryAfter requests) [] p ↔
      ∃ e ∈ sinceLast (fun e => e.1 = p ∧ e.2.Removes sub) requests, e.1 = p ∧
        e.2.filterSubscribeType = SubscribeType.subscribe ∧
        sub = ⟨e.2.pubsubTopic, e.2.contentTopics⟩ := by
  induction requests using List.reverseRecOn with
  | nil => simp [registryAfter, Maps.read, sinceLast]
  | append_singleton requests e ih =>
    rw [registryAfter, List.foldl_append, List.foldl_cons, List.foldl_nil, ← registryAfter,
      read_applyFilterRequest, sinceLast_snoc]
    by_cases hp : p = e.1
    · subst hp
      rw [Function.update_self, mem_nextSubs, ih]
      by_cases hr : e.2.Removes sub
      · simp [hr, hr.not_subscribe]
      · simp [hr, or_and_right, exists_or]
    · rw [Function.update_of_ne hp, ih]
      simp [Ne.symm hp, or_and_right, exists_or]

theorem FilterSub.matches_iff (sub : FilterSub) (topic contentTopic : String) :
    sub.matches topic contentTopic = true ↔
      (sub.pubsubTopic = none ∨ sub.pubsubTopic = some topic) ∧
        (sub.contentTopics = [] ∨ contentTopic ∈ sub.contentTopics) := by
  obtain ⟨pubsubTopic, contentTopics⟩ := sub
  cases pubsubTopic with
  | none => simp [FilterSub.matches]
  | some t => simp [FilterSub.matches]

/-- The peer sent a SUBSCRIBE that matches, and neither an UNSUBSCRIBE of the same topic and
list nor an UNSUBSCRIBE_ALL after it. -/
def LiveSubscription (p : PeerId) (topic contentTopic : String)
    (requests : List (PeerId × FilterSubscribeRequest)) : Prop :=
  ∃ past req later, requests = past ++ (p, req) :: later ∧
    req.filterSubscribeType = SubscribeType.subscribe ∧
    (req.pubsubTopic = none ∨ req.pubsubTopic = some topic) ∧
    (req.contentTopics = [] ∨ contentTopic ∈ req.contentTopics) ∧
    ∀ e ∈ later, e.1 = p →
      ¬(e.2.filterSubscribeType = SubscribeType.unsubscribe ∧
        e.2.pubsubTopic = req.pubsubTopic ∧ e.2.contentTopics = req.contentTopics) ∧
      e.2.filterSubscribeType ≠ SubscribeType.unsubscribeAll

theorem liveSubscription_iff (p : PeerId) (topic contentTopic : String)
    (requests : List (PeerId × FilterSubscribeRequest)) :
    LiveSubscription p topic contentTopic requests ↔
      ∃ sub ∈ Maps.read (registryAfter requests) [] p, sub.matches topic contentTopic = true := by
  simp only [mem_registryAfter, mem_sinceLast_iff, FilterSub.matches_iff, decide_eq_false_iff_not]
  constructor
  · rintro ⟨past, req, later, hreq, hsub, htopic, hlist, hlater⟩
    refine ⟨⟨req.pubsubTopic, req.contentTopics⟩,
      ⟨(p, req), ⟨past, later, hreq, ?_, ?_⟩, rfl, hsub, rfl⟩, htopic, hlist⟩
    · intro hremoves
      exact hremoves.2.not_subscribe hsub
    · intro e he hremoves
      obtain ⟨hsame, hall⟩ := hlater e he hremoves.1
      obtain ⟨hu, ht, hc⟩ | ha := hremoves.2
      · exact hsame ⟨hu, ht.symm, hc.symm⟩
      · exact hall ha
  · rintro ⟨sub, ⟨⟨q, req⟩, ⟨past, later, hreq, -, hlater⟩, hp, hsub, heq⟩, htopic, hlist⟩
    cases hp
    cases heq
    refine ⟨past, req, later, hreq, hsub, htopic, hlist, fun e he hp => ⟨?_, ?_⟩⟩
    · rintro ⟨hu, ht, hc⟩
      exact hlater e he ⟨hp, Or.inl ⟨hu, ht.symm, hc.symm⟩⟩
    · intro ha
      exact hlater e he ⟨hp, Or.inr ha⟩

theorem read_registryAfter (requests : List (PeerId × FilterSubscribeRequest)) (p : PeerId) :
    Maps.read (registryAfter requests) [] p =
      (requests.filter fun e => e.1 = p).foldl (fun subs e => nextSubs subs e.2) [] := by
  induction requests using List.reverseRecOn with
  | nil => rfl
  | append_singleton requests e ih =>
    rw [registryAfter, List.foldl_append, List.foldl_cons, List.foldl_nil, ← registryAfter,
      read_applyFilterRequest, List.filter_append, List.foldl_append, ← ih]
    by_cases hp : e.1 = p
    · simp [hp]
    · simp [hp, Function.update_of_ne (Ne.symm hp)]

theorem nextSubs_of_ignored (subs : List FilterSub) (filters : FilterRegistry) (peer : PeerId)
    (req : FilterSubscribeRequest) (h : req.filterSubscribeType = SubscribeType.ping ∨
      (applyFilterRequest filters peer req).2.statusCode = 400) : nextSubs subs req = subs := by
  have hne : req.filterSubscribeType ≠ SubscribeType.subscribe ∧
      req.filterSubscribeType ≠ SubscribeType.unsubscribe ∧
      req.filterSubscribeType ≠ SubscribeType.unsubscribeAll := by
    obtain hping | hstatus := h
    · rw [hping]
      decide
    · -- the other types are answered with 200
      unfold applyFilterRequest at hstatus
      refine ⟨fun hs => ?_, fun hu => ?_, fun ha => ?_⟩
      · rw [if_pos hs] at hstatus
        cases hstatus
      · rw [if_neg (by rw [hu]; decide), if_pos hu] at hstatus
        cases hstatus
      · rw [if_neg (by rw [ha]; decide), if_neg (by rw [ha]; decide), if_pos ha] at hstatus
        cases hstatus
  rw [nextSubs, if_neg hne.1, if_neg hne.2.1, if_neg hne.2.2]

/-- A message is pushed exactly once to a peer with a live subscription that matches it, and
not at all to any other peer. Requests of other peers, PINGs and requests that are answered
with 400 make no difference. -/
theorem filter_pushes_exact (requests : List (PeerId × FilterSubscribeRequest)) (p : PeerId)
    (topic : String) (msg : WakuMessage) :
    (LiveSubscription p topic msg.contentTopic requests →
      pushesTo p (registryAfter requests) topic msg = [(p, ⟨some msg, some topic⟩)]) ∧
    (¬LiveSubscription p topic msg.contentTopic requests →
      pushesTo p (registryAfter requests) topic msg = []) ∧
    ∀ past e later, requests = past ++ e :: later →
      (e.1 ≠ p ∨ e.2.filterSubscribeType = SubscribeType.ping ∨
        (applyFilterRequest (registryAfter past) e.1 e.2).2.statusCode = 400) →
      pushesTo p (registryAfter (past ++ later)) topic msg =
        pushesTo p (registryAfter requests) topic msg := by
  refine ⟨?_, ?_, ?_⟩
  · intro hlive
    rw [pushesTo_eq, if_pos ((liveSubscription_iff ..).mp hlive)]
  · intro hdead
    rw [pushesTo_eq, if_neg (mt (liveSubscription_iff ..).mpr hdead)]
  · intro past e later hreq hignored
    have hread : Maps.read (registryAfter (past ++ later)) [] p =
        Maps.read (registryAfter requests) [] p := by
      rw [hreq, read_registryAfter, read_registryAfter, List.filter_append, List.filter_append,
        List.foldl_append, List.foldl_append]
      by_cases hp : e.1 = p
      · rw [List.filter_cons_of_pos (by simpa using hp), List.foldl_cons,
          nextSubs_of_ignored _ _ _ _ (hignored.resolve_left (not_not.mpr hp))]
      · rw [List.filter_cons_of_neg (by simpa using hp)]
    rw [pushesTo_eq, pushesTo_eq, hread]

/- Two overlapping subscriptions, one of which is removed again, and a request of another peer. -/
def sampleRequests : List (PeerId × FilterSubscribeRequest) :=
  [(⟨[1]⟩, { filterSubscribeType := 1, contentTopics := ["/app/1/x/proto"] }),
    (⟨[1]⟩, { filterSubscribeType := 1 }),
    (⟨[2]⟩, { filterSubscribeType := 3 }),
    (⟨[1]⟩, { filterSubscribeType := 2, contentTopics := ["/app/1/x/proto"] })]

theorem filter_pushes_sample :
    pushesTo ⟨[1]⟩ (registryAfter sampleRequests) "/waku/2/rs/1/0"
        { contentTopic := "/app/1/x/proto" } =
      [(⟨[1]⟩, ⟨some { contentTopic := "/app/1/x/proto" }, some "/waku/2/rs/1/0"⟩)] := by
  apply (filter_pushes_exact sampleRequests ⟨[1]⟩ "/waku/2/rs/1/0"
    { contentTopic := "/app/1/x/proto" }).1
  exact ⟨[_], _, _, rfl, rfl, Or.inl rfl, Or.inl rfl, by decide +kernel⟩

end RsWaku
