import RsWaku.EnrTree
import RsWaku.Traversal

/-! The walk over the records of a tree as a traversal of the hashes that branch records list.
A hash counts only with a record that hashes to it. -/
namespace RsWaku
open Control
variable (crates : DnsCrates) (resolver : TxtResolver) (domain : String)

def Authentic (hash content : String) : Prop :=
  (∃ rest, resolver (hash ++ "." ++ domain) = .ok (content :: rest)) ∧
    subdomainHash crates content = hash

def Lists (hash child : String) : Prop :=
  ∃ branch, Authentic crates resolver domain hash ("enrtree-branch:" ++ branch) ∧
    child ∈ childHashes branch

def InTree : String → String → Prop := Relation.ReflTransGen (Lists crates resolver domain)

def TreeLeaf (eRoot : String) (enr : crates.Enr) : Prop :=
  ∃ hash text, InTree crates resolver domain eRoot hash ∧
    Authentic crates resolver domain hash ("enr:" ++ text) ∧
    crates.enrFromStr ("enr:" ++ text) = some enr

def authenticContent (hash : String) : Option String :=
  match resolver (hash ++ "." ++ domain) with
  | .ok (content :: _) => if subdomainHash crates content = hash then some content else none
  | _ => none

def childrenOf (hash : String) : List String :=
  ((authenticContent crates resolver domain hash).bind fun content =>
    (Text.stripPrefix content "enrtree-branch:").map childHashes).getD []

def leafOf (hash : String) : Option crates.Enr :=
  (authenticContent crates resolver domain hash).bind fun content =>
    if Text.startsWith content "enr:" then crates.enrFromStr content else none

def nextHashes (hash : String) : List String := (childrenOf crates resolver domain hash).reverse

variable {crates resolver domain} {hash : String}

theorem authenticContent_eq_some {content : String} :
    authenticContent crates resolver domain hash = some content ↔
      Authentic crates resolver domain hash content := by
  cases hrecords : resolver (hash ++ "." ++ domain) with
  | error e => simp [authenticContent, Authentic, hrecords]
  | ok records =>
    cases records with
    | nil => simp [authenticContent, Authentic, hrecords]
    | cons first rest =>
      simp only [authenticContent, Authentic, hrecords, Option.ite_none_right_eq_some,
        Option.some.injEq, Except.ok.injEq, List.cons.injEq]
      constructor
      · intro ⟨hhash, hfirst⟩
        exact ⟨⟨rest, hfirst, rfl⟩, hfirst ▸ hhash⟩
      · intro ⟨⟨_, hfirst, _⟩, hhash⟩
        exact ⟨hfirst ▸ hhash, hfirst⟩

theorem mem_childrenOf {child : String} :
    child ∈ childrenOf crates resolver domain hash ↔ Lists crates resolver domain hash child := by
  have hgetD (o : Option (List String)) : child ∈ o.getD [] ↔ ∃ l, o = some l ∧ child ∈ l := by
    cases o <;> simp
  simp only [childrenOf, hgetD, Option.bind_eq_some_iff, Option.map_eq_some_iff,
    Text.stripPrefix_eq_some, authenticContent_eq_some]
  constructor
  · intro ⟨l, ⟨content, hcontent, branch, hbranch, hl⟩, hchild⟩
    subst hbranch hl
    exact ⟨branch, hcontent, hchild⟩
  · intro ⟨branch, hcontent, hchild⟩
    exact ⟨_, ⟨_, hcontent, branch, rfl, rfl⟩, hchild⟩

theorem mem_nextHashes {child : String} :
    child ∈ nextHashes crates resolver domain hash ↔ Lists crates resolver domain hash child := by
  rw [nextHashes, List.mem_reverse, mem_childrenOf]

theorem leafOf_eq_some {enr : crates.Enr} :
    leafOf crates resolver domain hash = some enr ↔
      ∃ text, Authentic crates resolver domain hash ("enr:" ++ text) ∧
        crates.enrFromStr ("enr:" ++ text) = some enr := by
  simp only [← authenticContent_eq_some, leafOf, Option.bind_eq_some_iff,
    Option.ite_none_right_eq_some, Text.startsWith_iff]
  constructor
  · intro ⟨content, hcontent, ⟨text, htext⟩, henr⟩
    subst htext
    exact ⟨text, hcontent, henr⟩
  · intro ⟨text, hcontent, henr⟩
    exact ⟨_, hcontent, ⟨text, rfl⟩, henr⟩

theorem not_startsWith_enr {content branch : String}
    (h : Text.stripPrefix content "enrtree-branch:" = some branch) :
    Text.startsWith content "enr:" = false := by
  rw [Text.stripPrefix_eq_some.mp h, Text.startsWith, String.toList_append]
  rfl

theorem childrenOf_branch {branch : String}
    (h : Authentic crates resolver domain hash ("enrtree-branch:" ++ branch)) :
    childrenOf crates resolver domain hash = childHashes branch := by
  rw [childrenOf, authenticContent_eq_some.mpr h, Option.bind_some,
    Text.stripPrefix_eq_some.mpr rfl, Option.map_some, Option.getD_some]

theorem leafOf_branch {branch : String}
    (h : Authentic crates resolver domain hash ("enrtree-branch:" ++ branch)) :
    leafOf crates resolver domain hash = none := by
  rw [leafOf, authenticContent_eq_some.mpr h, Option.bind_some,
    not_startsWith_enr (Text.stripPrefix_eq_some.mpr rfl), if_neg Bool.false_ne_true]

theorem childrenOf_enr {text : String}
    (h : Authentic crates resolver domain hash ("enr:" ++ text)) :
    childrenOf crates resolver domain hash = [] := by
  have hstart : Text.startsWith ("enr:" ++ text) "enr:" = true :=
    Text.startsWith_iff.mpr ⟨text, rfl⟩
  have hbranch : Text.stripPrefix ("enr:" ++ text) "enrtree-branch:" = none := by
    apply Option.eq_none_iff_forall_ne_some.mpr
    intro branch hbranch
    rw [not_startsWith_enr hbranch] at hstart
    cases hstart
  rw [childrenOf, authenticContent_eq_some.mpr h, Option.bind_some, hbranch, Option.map_none,
    Option.getD_none]

theorem WalkState.visit_eq (s : WalkState crates) :
    s.visit resolver domain hash =
      { s with
        stack := nextHashes crates resolver domain hash ++ s.stack
        enrs := s.enrs ++ (leafOf crates resolver domain hash).toList } := by
  unfold WalkState.visit nextHashes childrenOf leafOf authenticContent
  cases hrecords : resolver (hash ++ "." ++ domain) with
  | error e => simp
  | ok records =>
    cases records with
    | nil => simp
    | cons content rest =>
      by_cases hhash : subdomainHash crates content = hash
      · cases hbranch : Text.stripPrefix content "enrtree-branch:" with
        | some branch => simp [hhash, hbranch, not_startsWith_enr hbranch]
        | none =>
          by_cases henr : Text.startsWith content "enr:" = true
          · cases hparsed : crates.enrFromStr content with
            | none => simp [hhash, hbranch, hparsed]
            | some enr => simp [hhash, hbranch, henr, hparsed]
          · simp [hhash, hbranch, henr]
      · simp [hhash]

theorem WalkState.turn_eq (s : WalkState crates) :
    s.turn resolver domain =
      match s.stack with
      | [] => none
      | hash :: stack =>
        if hash = "" ∨ hash ∈ s.visited then some { s with stack }
        else if s.budget = 0 then none
        else
          some
            { enrs := s.enrs ++ (leafOf crates resolver domain hash).toList
              visited := insert hash s.visited
              stack := nextHashes crates resolver domain hash ++ stack
              budget := s.budget - 1 } := by
  cases hstack : s.stack with
  | nil => simp only [WalkState.turn, hstack]
  | cons hash stack => simp only [WalkState.turn, hstack, WalkState.visit_eq]

theorem treeWalk_fresh {s : WalkState crates} {stack : List String}
    (hstack : s.stack = hash :: stack) (hfresh : ¬(hash = "" ∨ hash ∈ s.visited))
    (hbudget : s.budget ≠ 0) :
    (treeWalk resolver domain).run s = (treeWalk resolver domain).run
      { enrs := s.enrs ++ (leafOf crates resolver domain hash).toList
        visited := insert hash s.visited
        stack := nextHashes crates resolver domain hash ++ stack
        budget := s.budget - 1 } := by
  apply Loop.run_of_some
  change s.turn resolver domain = _
  rw [WalkState.turn_eq, hstack]
  dsimp only
  rw [if_neg hfresh, if_neg hbudget]

variable (resolver domain) in
/-- The walk seen as a traversal of hashes. -/
structure WalkState.Simulates (s : WalkState crates) (a : Traversal.State String) : Prop where
  stack : a.stack = s.stack
  budget : a.budget = s.budget
  visited : s.visited = a.fetched.toFinset
  enrs : s.enrs = a.fetched.filterMap (leafOf crates resolver domain)

theorem WalkState.turn_simulates {s : WalkState crates} {a : Traversal.State String}
    (h : s.Simulates resolver domain a) :
    Option.Rel (WalkState.Simulates resolver domain) (s.turn resolver domain)
      (Traversal.step (· = "") (nextHashes crates resolver domain) a) := by
  rw [WalkState.turn_eq, Traversal.step, h.stack]
  cases s.stack with
  | nil => exact Option.Rel.none
  | cons hash stack =>
    have hseen : hash = "" ∨ hash ∈ s.visited ↔ decide (hash = "") = true ∨ hash ∈ a.fetched := by
      rw [h.visited, List.mem_toFinset, decide_eq_true_iff]
    dsimp only
    by_cases hdrop : hash = "" ∨ hash ∈ s.visited
    · rw [if_pos hdrop, if_pos (hseen.mp hdrop)]
      exact Option.Rel.some ⟨rfl, h.budget, h.visited, h.enrs⟩
    · rw [if_neg hdrop, if_neg (hseen.not.mp hdrop), h.budget]
      split
      · exact Option.Rel.none
      · refine Option.Rel.some ⟨rfl, rfl, ?_, ?_⟩
        · simp [h.visited]
        · cases hleaf : leafOf crates resolver domain hash with
          | none => simp [h.enrs, hleaf]
          | some enr => simp [h.enrs, hleaf]

theorem subdomainHash_ne_empty (content : String) : subdomainHash crates content ≠ "" := by
  intro h
  have hlength := congrArg String.length h
  rw [subdomainHash, BaseN.Encoding.encode_length, List.length_take,
    Vector.length_toList] at hlength
  cases hlength

theorem authentic_ne_empty {content : String}
    (h : Authentic crates resolver domain hash content) : hash ≠ "" :=
  h.2 ▸ subdomainHash_ne_empty content

theorem nextHashes_empty (h : hash = "") : nextHashes crates resolver domain hash = [] := by
  apply List.eq_nil_iff_forall_not_mem.mpr
  intro child hchild
  obtain ⟨branch, hbranch, -⟩ := mem_nextHashes.mp hchild
  exact authentic_ne_empty hbranch h

theorem reachable_iff {eRoot : String} :
    Traversal.Reachable (nextHashes crates resolver domain) eRoot hash ↔
      InTree crates resolver domain eRoot hash := by
  have hedge : (fun a b => b ∈ nextHashes crates resolver domain a) =
      Lists crates resolver domain := by
    funext a b
    exact propext mem_nextHashes
  rw [Traversal.Reachable, InTree, hedge]

variable (resolver domain) in
def WalkState.Sound (eRoot : String) (s : WalkState crates) : Prop :=
  ∃ a, s.Simulates resolver domain a ∧
    Traversal.Sound (· = "") (nextHashes crates resolver domain) eRoot maxRecords a

theorem WalkState.sound_start (eRoot : String) :
    WalkState.Sound resolver domain eRoot ({ stack := [eRoot] } : WalkState crates) :=
  ⟨⟨[eRoot], [], maxRecords⟩, ⟨rfl, rfl, rfl, rfl⟩, Traversal.sound_start eRoot maxRecords⟩

theorem WalkState.Sound.turn {eRoot : String} {s t : WalkState crates}
    (hturn : s.turn resolver domain = some t) (hs : s.Sound resolver domain eRoot) :
    t.Sound resolver domain eRoot := by
  obtain ⟨a, hsim, hsound⟩ := hs
  have hrel := WalkState.turn_simulates hsim
  rw [hturn] at hrel
  generalize hstep : Traversal.step _ _ a = next at hrel
  cases hrel with
  | some hsim => exact ⟨_, hsim, hsound.turn hstep⟩

/-- The walk parses the records of distinct hashes of the tree, and if the tree is within the
cap of all of them. -/
theorem treeWalk_spec (eRoot : String) :
    ∃ fetched : List String, fetched.Nodup ∧
      ((treeWalk resolver domain).run { stack := [eRoot] }).enrs =
        fetched.filterMap (leafOf crates resolver domain) ∧
      (∀ hash ∈ fetched, InTree crates resolver domain eRoot hash) ∧
      ({hash | InTree crates resolver domain eRoot hash}.encard ≤ maxRecords →
        ∀ hash, hash ∈ fetched ↔ InTree crates resolver domain eRoot hash ∧ hash ≠ "") := by
  obtain ⟨⟨a, hsim, hsound⟩, hexit⟩ := Loop.run_induction (l := treeWalk resolver domain)
    (fun _ _ => WalkState.Sound.turn) (@WalkState.sound_start crates resolver domain eRoot)
  refine ⟨a.fetched, hsound.nodup, hsim.enrs, fun hash hmem => ?_, fun hcap hash => ?_⟩
  · exact reachable_iff.mp (hsound.reached hash hmem).1
  · have hnone : Traversal.step (· = "") (nextHashes crates resolver domain) a = none := by
      have hrel := WalkState.turn_simulates hsim
      have hturn : WalkState.turn resolver domain
          ((treeWalk resolver domain).run { stack := [eRoot] } : WalkState crates) = none := hexit
      rw [hturn] at hrel
      generalize Traversal.step _ _ a = next at hrel
      cases hrel
      rfl
    rw [hsound.complete hnone, reachable_iff, decide_eq_false_iff_not]
    · intro hash hempty
      exact nextHashes_empty (of_decide_eq_true hempty)
    · simpa only [reachable_iff] using hcap

end RsWaku
