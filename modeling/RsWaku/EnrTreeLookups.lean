import RsWaku.EnrTreeWalk

/-! The names that resolving a tree asks for. A resolver may answer by what it was asked before;
the lookups are finitely many and no name is asked for twice, so that it might as well answer by
the name alone. -/
namespace RsWaku
open Control
variable {crates : DnsCrates} (resolver : List String → TxtResolver) (domain : String)

def WalkState.lookup (s : WalkState crates) : Option String :=
  match s.stack with
  | [] => none
  | hash :: _ =>
    if hash = "" ∨ hash ∈ s.visited then none
    else if s.budget = 0 then none
    else some (hash ++ "." ++ domain)

structure LookupState (crates : DnsCrates) where
  asked : List String
  walk : WalkState crates

def LookupState.turn (s : LookupState crates) : Option (LookupState crates) :=
  (s.walk.turn (resolver s.asked) domain).map fun walk =>
    { asked := s.asked ++ (s.walk.lookup domain).toList, walk }

def lookupWalk : Loop (LookupState crates) where
  turn := LookupState.turn resolver domain
  size s := (s.walk.budget, s.walk.stack.length)
  descends {s t} h := by
    obtain ⟨walk, hwalk, rfl⟩ := Option.map_eq_some_iff.mp h
    exact (treeWalk (resolver s.asked) domain).descends hwalk

variable (crates) in
def fetchRoot (r : TxtResolver) (link : EnrTreeLink) : Except DnsError RootRecord := do
  let rootRecords ← r link.domain
  let rootTxt ← okOr (rootRecords.find? fun r => Text.startsWith r "enrtree-root:v1")
    (.root "no enrtree-root record")
  verifyRoot crates rootTxt link.pubkey

variable (crates) in
def resolveLogged (url : String) (resolver : List String → TxtResolver) :
    List String × Except DnsError (List crates.Enr) :=
  match parseEnrtree crates url with
  | .error e => ([], .error e)
  | .ok link =>
    match fetchRoot crates (resolver []) link with
    | .error e => ([link.domain], .error e)
    | .ok root =>
      let s := (lookupWalk resolver link.domain).run ⟨[link.domain], { stack := [root.eRoot] }⟩
      (s.asked, .ok s.walk.enrs)

variable {resolver domain}

variable (domain) in
theorem WalkState.turn_lookup (s : WalkState crates) :
    (s.lookup domain = none ∧ ∃ next, (∀ r, s.turn r domain = next) ∧
      ∀ t ∈ next, t.visited = s.visited ∧ t.budget = s.budget) ∨
    ∃ hash stack, s.lookup domain = some (hash ++ "." ++ domain) ∧ hash ∉ s.visited ∧
      0 < s.budget ∧ ∀ r, s.turn r domain = some (WalkState.visit r domain hash
        { s with stack, visited := insert hash s.visited, budget := s.budget - 1 }) := by
  unfold WalkState.lookup WalkState.turn
  cases s.stack with
  | nil => exact .inl ⟨rfl, none, fun _ => rfl, fun t ht => by cases ht⟩
  | cons hash stack =>
    dsimp only
    by_cases hdrop : hash = "" ∨ hash ∈ s.visited
    · refine .inl ⟨if_pos hdrop, _, fun _ => if_pos hdrop, fun t ht => ?_⟩
      cases ht
      exact ⟨rfl, rfl⟩
    · rw [if_neg hdrop]
      by_cases hbudget : s.budget = 0
      · refine .inl ⟨if_pos hbudget, none, fun _ => ?_, fun t ht => by cases ht⟩
        rw [if_neg hdrop, if_pos hbudget]
      · refine .inr ⟨hash, stack, if_neg hbudget, (not_or.mp hdrop).2, Nat.pos_of_ne_zero hbudget,
          fun _ => ?_⟩
        rw [if_neg hdrop, if_neg hbudget]

theorem WalkState.turn_congr {r r' : TxtResolver} {s : WalkState crates}
    (h : ∀ name ∈ s.lookup domain, r name = r' name) :
    s.turn r domain = s.turn r' domain := by
  obtain ⟨-, next, hnext, -⟩ | ⟨hash, stack, hlookup, -, -, hturn⟩ := s.turn_lookup domain
  · rw [hnext, hnext]
  · rw [hturn, hturn, WalkState.visit, WalkState.visit, h _ hlookup]

theorem WalkState.lookup_of_turn_none {r : TxtResolver} {s : WalkState crates}
    (h : s.turn r domain = none) : s.lookup domain = none := by
  obtain ⟨hnone, -⟩ | ⟨hash, stack, -, -, -, hturn⟩ := s.turn_lookup domain
  · exact hnone
  · rw [hturn] at h
    cases h

variable (domain) in
/-- The hashes that were looked up are those visited, and each took one of the budget. -/
def LookupState.Logged (s : LookupState crates) : Prop :=
  ∃ hashes : List String, s.asked = domain :: hashes.map (fun hash => hash ++ "." ++ domain) ∧
    hashes.Nodup ∧ s.walk.visited = hashes.toFinset ∧
    hashes.length + s.walk.budget = maxRecords

theorem LookupState.logged_start (eRoot : String) :
    LookupState.Logged domain (⟨[domain], { stack := [eRoot] }⟩ : LookupState crates) :=
  ⟨[], rfl, List.nodup_nil, rfl, Nat.zero_add _⟩

theorem LookupState.Logged.turn {s t : LookupState crates}
    (h : s.turn resolver domain = some t) (hs : s.Logged domain) : t.Logged domain := by
  obtain ⟨hashes, hasked, hnodup, hvisited, hspent⟩ := hs
  obtain ⟨walk, hwalk, rfl⟩ := Option.map_eq_some_iff.mp h
  obtain ⟨hnone, next, hnext, hsame⟩ | ⟨hash, stack, hlookup, hnew, hpos, hturn⟩ :=
    s.walk.turn_lookup domain
  · rw [hnext] at hwalk
    obtain ⟨hvisited', hbudget⟩ := hsame walk hwalk
    refine ⟨hashes, ?_, hnodup, hvisited'.trans hvisited, by rwa [hbudget]⟩
    rw [hnone, Option.toList_none, List.append_nil, hasked]
  · rw [hturn, WalkState.visit_eq] at hwalk
    cases hwalk
    rw [hvisited, List.mem_toFinset] at hnew
    refine ⟨hashes ++ [hash], ?_, ?_, ?_, ?_⟩
    · rw [hlookup, hasked, List.map_append]
      rfl
    · exact List.nodup_append_comm.mp (List.nodup_cons.mpr ⟨hnew, hnodup⟩)
    · simp [hvisited]
    · rw [List.length_append, List.length_singleton]
      dsimp only
      omega

theorem LookupState.Logged.run {s : LookupState crates} (hs : s.Logged domain) :
    ((lookupWalk resolver domain).run s).Logged domain :=
  (Loop.run_induction (fun _ _ => LookupState.Logged.turn) hs).1

theorem LookupState.Logged.nodup {s : LookupState crates} (hs : s.Logged domain) :
    s.asked.Nodup := by
  obtain ⟨hashes, hasked, hnodup, -, -⟩ := hs
  rw [hasked, List.nodup_cons]
  constructor
  · intro hmem
    obtain ⟨hash, -, hname⟩ := List.mem_map.mp hmem
    have hlength := congrArg String.length hname
    rw [String.length_append, String.length_append] at hlength
    have hdot : ".".length = 1 := rfl
    omega
  · refine hnodup.map fun a b hab => ?_
    have hchars := congrArg String.toList hab
    rw [String.toList_append, String.toList_append, String.toList_append,
      String.toList_append] at hchars
    exact String.toList_inj.mp (List.append_cancel_right (List.append_cancel_right hchars))

theorem LookupState.asked_prefix (s : LookupState crates) :
    s.asked <+: ((lookupWalk resolver domain).run s).asked := by
  refine (@Loop.run_induction _ (lookupWalk resolver domain) s (s.asked <+: ·.asked)
    (fun t u hturn ht => ?_) (List.prefix_refl _)).1
  obtain ⟨walk, hwalk, rfl⟩ := Option.map_eq_some_iff.mp hturn
  exact ht.trans (List.prefix_append _ _)

theorem run_of_answers {r : TxtResolver} {s : LookupState crates}
    (h : ∀ before name, before ++ [name] <+: ((lookupWalk resolver domain).run s).asked →
      r name = resolver before name) :
    ((lookupWalk resolver domain).run s).walk = (treeWalk r domain).run s.walk := by
  induction s using Loop.run.induct (lookupWalk resolver domain) with
  | case1 s hnone =>
    have hstop : s.walk.turn (resolver s.asked) domain = none := Option.map_eq_none_iff.mp hnone
    have hturn : s.walk.turn r domain = none := by
      rw [WalkState.turn_congr, hstop]
      rw [WalkState.lookup_of_turn_none hstop]
      intro name hname
      cases hname
    rw [Loop.run_of_none hnone, @Loop.run_of_none _ (treeWalk r domain) _ hturn]
  | case2 s t hsome ih =>
    have hasked := @LookupState.asked_prefix crates resolver domain t
    obtain ⟨walk, hwalk, rfl⟩ := Option.map_eq_some_iff.mp hsome
    rw [Loop.run_of_some hsome] at h ⊢
    have hturn : s.walk.turn r domain = some walk := by
      rw [WalkState.turn_congr, hwalk]
      intro name hname
      have hlookup : (s.walk.lookup domain).toList = [name] := by
        rw [Option.mem_def.mp hname]
        rfl
      refine h s.asked name ?_
      rw [← hlookup]
      exact hasked
    rw [ih h, @Loop.run_of_some _ (treeWalk r domain) _ _ hturn]

theorem resolve_eq (url : String) (r : TxtResolver) :
    resolve crates url r = parseEnrtree crates url >>= fun link =>
      fetchRoot crates r link >>= fun root =>
        .ok ((treeWalk r link.domain).run { stack := [root.eRoot] }).enrs := by
  simp only [resolve, fetchRoot, bind_assoc]
  rfl

theorem resolveLogged_cases (url : String) (resolver : List String → TxtResolver) :
    (∃ e, parseEnrtree crates url = .error e ∧
      resolveLogged crates url resolver = ([], .error e)) ∨
    (∃ link e, parseEnrtree crates url = .ok link ∧
      fetchRoot crates (resolver []) link = .error e ∧
      resolveLogged crates url resolver = ([link.domain], .error e)) ∨
    ∃ link root s, parseEnrtree crates url = .ok link ∧
      fetchRoot crates (resolver []) link = .ok root ∧
      s = (lookupWalk resolver link.domain).run ⟨[link.domain], { stack := [root.eRoot] }⟩ ∧
      resolveLogged crates url resolver = (s.asked, .ok s.walk.enrs) := by
  rw [resolveLogged]
  cases hlink : parseEnrtree crates url with
  | error e => exact .inl ⟨e, rfl, rfl⟩
  | ok link =>
    dsimp only
    cases hroot : fetchRoot crates (resolver []) link with
    | error e => exact .inr (.inl ⟨link, e, rfl, hroot, rfl⟩)
    | ok root => exact .inr (.inr ⟨link, root, _, rfl, hroot, rfl, rfl⟩)

theorem resolveLogged_asked (url : String) (resolver : List String → TxtResolver) :
    (resolveLogged crates url resolver).1 = [] ∨ ∃ domain, ∃ s : LookupState crates,
      s.Logged domain ∧ (resolveLogged crates url resolver).1 = s.asked := by
  obtain ⟨e, -, hresult⟩ | ⟨link, e, -, -, hresult⟩ | ⟨link, root, s, -, -, hs, hresult⟩ :=
    @resolveLogged_cases crates url resolver
  · exact .inl (congrArg Prod.fst hresult)
  · exact .inr ⟨link.domain, _, LookupState.logged_start "", congrArg Prod.fst hresult⟩
  · refine .inr ⟨link.domain, s, ?_, congrArg Prod.fst hresult⟩
    rw [hs]
    exact (LookupState.logged_start root.eRoot).run

theorem nodup_resolveLogged (url : String) (resolver : List String → TxtResolver) :
    (resolveLogged crates url resolver).1.Nodup := by
  obtain hnil | ⟨domain, s, hs, hasked⟩ := @resolveLogged_asked crates url resolver
  · rw [hnil]
    exact List.nodup_nil
  · rw [hasked]
    exact hs.nodup

theorem resolveLogged_of_answers {url : String} {r : TxtResolver}
    (h : ∀ before name, before ++ [name] <+: (resolveLogged crates url resolver).1 →
      r name = resolver before name) :
    (resolveLogged crates url resolver).2 = resolve crates url r := by
  have hfetch (link : EnrTreeLink)
      (hfirst : [link.domain] <+: (resolveLogged crates url resolver).1) :
      fetchRoot crates r link = fetchRoot crates (resolver []) link := by
    rw [fetchRoot, fetchRoot, h [] link.domain hfirst]
  rw [resolve_eq]
  obtain ⟨e, hlink, hresult⟩ | ⟨link, e, hlink, hroot, hresult⟩ |
    ⟨link, root, s, hlink, hroot, hs, hresult⟩ := @resolveLogged_cases crates url resolver
  · rw [hresult, hlink]
    rfl
  · have hsame := hfetch link (by rw [hresult])
    rw [hresult, hlink]
    change _ = fetchRoot crates r link >>= _
    rw [hsame, hroot]
    rfl
  · rw [hresult] at h hfetch ⊢
    subst hs
    have hsame := hfetch link (@LookupState.asked_prefix crates resolver link.domain
      ⟨[link.domain], { stack := [root.eRoot] }⟩)
    rw [hlink]
    change _ = fetchRoot crates r link >>= _
    rw [hsame, hroot, run_of_answers h]
    rfl

/-- A resolver that answers by what it was asked before does no more than one that answers by the
name. -/
theorem exists_resolver (url : String) (resolver : List String → TxtResolver) :
    ∃ r, (resolveLogged crates url resolver).2 = resolve crates url r := by
  have hnodup := @nodup_resolveLogged crates url resolver
  -- the answer to a name is the one given when it was asked for
  refine ⟨fun name => resolver
    ((resolveLogged crates url resolver).1.takeWhile (· ≠ name)) name, ?_⟩
  refine resolveLogged_of_answers fun before name ⟨rest, hasked⟩ => ?_
  rw [← hasked, List.append_assoc, List.nodup_append] at hnodup
  have hbefore : ∀ a ∈ before, decide (a ≠ name) = true := fun a ha =>
    decide_eq_true (hnodup.2.2 a ha name List.mem_cons_self)
  rw [← hasked, List.append_assoc, List.takeWhile_append_of_pos hbefore]
  simp

/-- Resolving a tree comes to its end after at most 5000 lookups of hashes, all of them different,
whatever the resolver answers. -/
theorem resolve_lookups_bounded (crates : DnsCrates) (url : String)
    (resolver : List String → TxtResolver) :
    (∀ (domain : String) (s : LookupState crates), ∃ n,
      (lookupWalk resolver domain).after n s = some ((lookupWalk resolver domain).run s) ∧
      (lookupWalk resolver domain).turn ((lookupWalk resolver domain).run s) = none) ∧
    ((resolveLogged crates url resolver).1 = [] ∨ ∃ (domain : String) (hashes : List String),
      (resolveLogged crates url resolver).1 =
        domain :: hashes.map (fun hash => hash ++ "." ++ domain) ∧
      hashes.Nodup ∧ hashes.length ≤ maxRecords) ∧
    (resolveLogged crates url resolver).1.Nodup ∧
    (resolveLogged crates url resolver).1.length ≤ 5001 ∧
    ∀ r : TxtResolver, (resolveLogged crates url fun _ => r).2 = resolve crates url r := by
  refine ⟨fun domain s => ?_, ?_, nodup_resolveLogged url resolver, ?_, fun r => ?_⟩
  · obtain ⟨n, hn⟩ := (lookupWalk resolver domain).exists_after s
    exact ⟨n, hn, (lookupWalk resolver domain).turn_run s⟩
  · refine (resolveLogged_asked url resolver).imp_right fun ⟨domain, s, hs, hasked⟩ => ?_
    obtain ⟨hashes, hlog, hnodup, -, hspent⟩ := hs
    exact ⟨domain, hashes, hasked.trans hlog, hnodup, by omega⟩
  · obtain hnil | ⟨domain, s, hs, hasked⟩ := @resolveLogged_asked crates url resolver
    · rw [hnil]
      exact Nat.zero_le _
    · obtain ⟨hashes, hlog, -, -, hspent⟩ := hs
      have hcap : maxRecords = 5000 := rfl
      rw [hasked, hlog, List.length_cons, List.length_map]
      omega
  · exact resolveLogged_of_answers fun _ _ _ => rfl

end RsWaku
