import Mathlib.Data.Multiset.AddSub
import Mathlib.Logic.Relation

/-! A handshake among parties that are each in a group. Whoever notices a new link asks the other
end, an answer carries the group of the party that gives it, and a party that learns of
another group than its own drops its links to the other end. Steps come in any order, links
may close at any time, and what is in flight between two ends is lost only if no link joins
them. -/
namespace RsWaku.Handshake
variable {π κ : Type*}

structure Link (π : Type*) where
  id : Nat
  dialer : π
  listener : π
deriving DecidableEq

def Link.Joins (l : Link π) (a b : π) : Prop :=
  l.dialer = a ∧ l.listener = b ∨ l.dialer = b ∧ l.listener = a

instance [DecidableEq π] (l : Link π) (a b : π) : Decidable (l.Joins a b) :=
  inferInstanceAs (Decidable (_ ∨ _))

/-- What is in flight: a link that its end has not noticed yet, a question or an answer. -/
inductive Token (π κ : Type*) where
  | opened (link : Link π) (side other : π)
  | ask (src dst : π)
  | answer (src dst : π) (value : κ)

def Token.ends : Token π κ → π × π
  | .opened _ side other => (side, other)
  | .ask src dst => (src, dst)
  | .answer src dst _ => (src, dst)

structure State (π κ : Type*) where
  links : List (Link π)
  tokens : Multiset (Token π κ)

inductive Step [DecidableEq π] (group : π → κ) : State π κ → State π κ → Prop
  | connect (links : List (Link π)) (tokens : Multiset (Token π κ)) (l : Link π) :
    Step group ⟨links, tokens⟩
      ⟨l :: links, .opened l l.dialer l.listener ::ₘ .opened l l.listener l.dialer ::ₘ tokens⟩
  | notice (links : List (Link π)) (tokens : Multiset (Token π κ)) (l : Link π) (p q : π) :
    Step group ⟨links, .opened l p q ::ₘ tokens⟩ ⟨links, .ask p q ::ₘ tokens⟩
  | refuse (links : List (Link π)) (tokens : Multiset (Token π κ)) (l : Link π) (p q : π) :
    Step group ⟨links, .opened l p q ::ₘ tokens⟩ ⟨links.filter fun l => ¬l.Joins p q, tokens⟩
  | reply (links : List (Link π)) (tokens : Multiset (Token π κ)) (p q : π) :
    Step group ⟨links, .ask p q ::ₘ tokens⟩ ⟨links, .answer q p (group q) ::ₘ tokens⟩
  | agree (links : List (Link π)) (tokens : Multiset (Token π κ)) (p q : π) :
    Step group ⟨links, .answer q p (group p) ::ₘ tokens⟩ ⟨links, tokens⟩
  | differ (links : List (Link π)) (tokens : Multiset (Token π κ)) (p q : π) (value : κ) :
    value ≠ group p → Step group ⟨links, .answer q p value ::ₘ tokens⟩
      ⟨links.filter fun l => ¬l.Joins p q, tokens⟩
  | close (links : List (Link π)) (tokens : Multiset (Token π κ)) (keep : Link π → Bool) :
    Step group ⟨links, tokens⟩ ⟨links.filter keep, tokens⟩
  | lose (links : List (Link π)) (tokens : Multiset (Token π κ)) (t : Token π κ) :
    (∀ l ∈ links, ¬l.Joins t.ends.1 t.ends.2) → Step group ⟨links, t ::ₘ tokens⟩ ⟨links, tokens⟩

def Token.Pursues (l : Link π) : Token π κ → Prop
  | .opened link side other => link = l ∧ side = l.dialer ∧ other = l.listener
  | .ask src dst => src = l.dialer ∧ dst = l.listener
  | .answer src dst _ => src = l.listener ∧ dst = l.dialer

/-- Answers are true, and a link between different groups is still being examined. -/
structure Inv (group : π → κ) (s : State π κ) : Prop where
  honest : ∀ src dst value, .answer src dst value ∈ s.tokens → value = group src
  pursued : ∀ l ∈ s.links, group l.dialer ≠ group l.listener →
    ∃ t ∈ s.tokens, t.Pursues l

variable {group : π → κ} {s s' : State π κ}

theorem Token.Pursues.joins {l : Link π} {t : Token π κ} (h : t.Pursues l) :
    l.Joins t.ends.1 t.ends.2 := by
  cases t with
  | opened link side other => exact Or.inl ⟨h.2.1.symm, h.2.2.symm⟩
  | ask src dst => exact Or.inl ⟨h.1.symm, h.2.symm⟩
  | answer src dst value => exact Or.inr ⟨h.2.symm, h.1.symm⟩

theorem Inv.take {links links' : List (Link π)} {tokens tokens' : Multiset (Token π κ)}
    {t : Token π κ} (h : Inv group ⟨links, t ::ₘ tokens⟩) (hlinks : ∀ l ∈ links', l ∈ links)
    (htokens : ∀ t' ∈ tokens, t' ∈ tokens')
    (hnew : ∀ l ∈ links', group l.dialer ≠ group l.listener → t.Pursues l →
      ∃ t' ∈ tokens', t'.Pursues l)
    (hhonest : ∀ src dst value, .answer src dst value ∈ tokens' →
      .answer src dst value ∈ tokens ∨ value = group src) :
    Inv group ⟨links', tokens'⟩ := by
  refine ⟨fun src dst value hmem => ?_, fun l hl hne => ?_⟩
  · obtain hold | hvalue := hhonest src dst value hmem
    · exact h.honest src dst value (Multiset.mem_cons_of_mem hold)
    · exact hvalue
  · obtain ⟨t', ht', hpursues⟩ := h.pursued l (hlinks l hl) hne
    obtain rfl | hold := Multiset.mem_cons.mp ht'
    · exact hnew l hl hne hpursues
    · exact ⟨t', htokens t' hold, hpursues⟩

/-- A link between whose ends nothing is in flight joins parties of one group. -/
theorem Inv.settled (h : Inv group s) {l : Link π} (hl : l ∈ s.links)
    (hquiet : ∀ t ∈ s.tokens, ¬l.Joins t.ends.1 t.ends.2) :
    group l.dialer = group l.listener := by
  by_contra hne
  obtain ⟨t, ht, hpursues⟩ := h.pursued l hl hne
  exact hquiet t ht hpursues.joins

variable [DecidableEq π]

theorem step_inv (h : Inv group s) (hs : Step group s s') : Inv group s' := by
  have hkeep {links : List (Link π)} {p : Link π → Bool} : ∀ l ∈ links.filter p, l ∈ links :=
    fun l hl => (List.mem_filter.mp hl).1
  cases hs with
  | connect links tokens l =>
    refine ⟨fun src dst value hmem => ?_, fun l' hl' hne => ?_⟩
    · have hold : .answer src dst value ∈ tokens := by simpa using hmem
      exact h.honest src dst value hold
    · obtain rfl | hold := List.mem_cons.mp hl'
      · exact ⟨_, Multiset.mem_cons_self _ _, rfl, rfl, rfl⟩
      · obtain ⟨t, ht, hpursues⟩ := h.pursued l' hold hne
        exact ⟨t, Multiset.mem_cons_of_mem (Multiset.mem_cons_of_mem ht), hpursues⟩
  | notice links tokens l p q =>
    refine h.take (fun _ hl => hl) (fun _ => Multiset.mem_cons_of_mem) ?_ ?_
    · intro l' _ _ hpursues
      exact ⟨.ask p q, Multiset.mem_cons_self _ _, hpursues.2⟩
    · intro src dst value hmem
      exact Or.inl (by simpa using hmem)
  | refuse links tokens l p q =>
    refine h.take hkeep (fun _ ht => ht) ?_ fun _ _ _ => Or.inl
    intro l' hl' _ hpursues
    exact absurd hpursues.joins (of_decide_eq_true (List.mem_filter.mp hl').2)
  | reply links tokens p q =>
    refine h.take (fun _ hl => hl) (fun _ => Multiset.mem_cons_of_mem) ?_ ?_
    · intro l _ _ hpursues
      exact ⟨_, Multiset.mem_cons_self _ _, hpursues.2, hpursues.1⟩
    · intro src dst value hmem
      obtain heq | hold := Multiset.mem_cons.mp hmem
      · cases heq
        exact Or.inr rfl
      · exact Or.inl hold
  | agree links tokens p q =>
    refine h.take (fun _ hl => hl) (fun _ ht => ht) ?_ fun _ _ _ => Or.inl
    intro l _ hne hpursues
    have hvalue := h.honest q p _ (Multiset.mem_cons_self _ _)
    rw [← hpursues.1, ← hpursues.2] at hne
    exact absurd hvalue hne
  | differ links tokens p q value hvalue =>
    refine h.take hkeep (fun _ ht => ht) ?_ fun _ _ _ => Or.inl
    intro l hl _ hpursues
    have hjoins := hpursues.joins
    exact absurd hjoins.symm (of_decide_eq_true (List.mem_filter.mp hl).2)
  | close links tokens keep =>
    exact ⟨h.honest, fun l hl hne => h.pursued l (hkeep l hl) hne⟩
  | lose links tokens t hlost =>
    refine h.take (fun _ hl => hl) (fun _ ht => ht) ?_ fun _ _ _ => Or.inl
    intro l hl _ hpursues
    exact absurd hpursues.joins (hlost l hl)

theorem reachable_inv (h : Inv group s) (hs : Relation.ReflTransGen (Step group) s s') :
    Inv group s' := by
  induction hs with
  | refl => exact h
  | tail _ hstep ih => exact step_inv ih hstep

end RsWaku.Handshake
