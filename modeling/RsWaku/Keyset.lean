import Mathlib.Data.List.Sort
import Mathlib.Order.Basic

/-! Keyset pagination over an arbitrary linear order of keys: listings in either
direction, pages cut from a listing, tables that grow or lose a lower set of keys between
two pages, and clients that fetch page after page. -/
namespace RsWaku.Keyset
variable {ρ κ : Type*} [LinearOrder κ]

/-- Strictly earlier in an ascending (`true`) or a descending (`false`) listing. -/
def Before (forward : Bool) (a b : κ) : Prop := if forward then a < b else b < a

instance (forward : Bool) (a b : κ) : Decidable (Before forward a b) :=
  inferInstanceAs (Decidable (if forward then a < b else b < a))

theorem before_irrefl (forward : Bool) (a : κ) : ¬Before forward a a := by
  cases forward <;> simp [Before]

theorem before_trans {forward : Bool} {a b c : κ} (h : Before forward a b)
    (h' : Before forward b c) : Before forward a c := by
  cases forward with
  | false =>
    change c < a
    exact lt_trans h' h
  | true =>
    change a < c
    exact lt_trans h h'

theorem before_or_eq_or_before (forward : Bool) (a b : κ) :
    Before forward a b ∨ a = b ∨ Before forward b a := by
  cases forward with
  | false =>
    obtain h | h | h := lt_trichotomy a b
    · exact Or.inr (Or.inr h)
    · exact Or.inr (Or.inl h)
    · exact Or.inl h
  | true => exact lt_trichotomy a b

theorem not_before_trans {forward : Bool} {a b c : κ} (h : ¬Before forward b a)
    (h' : ¬Before forward c b) : ¬Before forward c a := by
  intro hc
  obtain hab | hab | hab := before_or_eq_or_before forward a b
  · exact h' (before_trans hc hab)
  · exact h' (hab ▸ hc)
  · exact h hab

variable (key : ρ → κ)

def listing (forward : Bool) (rows : List ρ) : List ρ :=
  rows.insertionSort fun a b => ¬Before forward (key b) (key a)

def After (forward : Bool) (cursor : Option κ) (r : ρ) : Prop :=
  ∀ k ∈ cursor, Before forward k (key r)

instance (forward : Bool) (cursor : Option κ) : DecidablePred (After key forward cursor) :=
  fun r => inferInstanceAs (Decidable (∀ k ∈ cursor, Before forward k (key r)))

def Ordered (forward : Bool) (rows : List ρ) : Prop :=
  rows.Pairwise fun a b => Before forward (key a) (key b)

variable {key}

@[simp] theorem after_none (forward : Bool) (r : ρ) : After key forward none r := by
  simp [After]

@[simp] theorem after_some (forward : Bool) (k : κ) (r : ρ) :
    After key forward (some k) r ↔ Before forward k (key r) := by
  simp [After]

@[simp] theorem mem_listing {forward : Bool} {rows : List ρ} {r : ρ} :
    r ∈ listing key forward rows ↔ r ∈ rows := by
  simp [listing]

theorem listing_perm (forward : Bool) (rows : List ρ) : (listing key forward rows).Perm rows :=
  List.perm_insertionSort _ rows

theorem listing_ordered (forward : Bool) (rows : List ρ) (hn : (rows.map key).Nodup) :
    Ordered key forward (listing key forward rows) := by
  let r : ρ → ρ → Prop := fun a b => ¬Before forward (key b) (key a)
  have : Std.Total r := ⟨fun a b => by
    by_cases h : Before forward (key b) (key a)
    · exact Or.inr fun h' => before_irrefl forward _ (before_trans h h')
    · exact Or.inl h⟩
  have : IsTrans ρ r := ⟨fun a b c h h' => not_before_trans h h'⟩
  have hs : (listing key forward rows).Pairwise r := List.pairwise_insertionSort r rows
  have hd : (listing key forward rows).Pairwise fun a b => key a ≠ key b :=
    List.pairwise_map.mp (((listing_perm forward rows).map key).nodup_iff.mpr hn)
  apply (hs.and hd).imp
  intro a b hab
  obtain h | h | h := before_or_eq_or_before forward (key a) (key b)
  · exact h
  · exact absurd h hab.2
  · exact absurd h hab.1

theorem Ordered.nodup_keys {forward : Bool} {rows : List ρ} (h : Ordered key forward rows) :
    (rows.map key).Nodup := by
  refine List.pairwise_map.mpr (h.imp ?_)
  intro a b hab heq
  exact before_irrefl forward (key b) (heq ▸ hab)

theorem Ordered.eq_of_mem_iff {forward : Bool} {l l' : List ρ} (h : Ordered key forward l)
    (h' : Ordered key forward l') (hm : ∀ r, r ∈ l ↔ r ∈ l') : l = l' := by
  have : Std.Irrefl fun a b : ρ => Before forward (key a) (key b) :=
    ⟨fun a => before_irrefl forward (key a)⟩
  have : Std.Antisymm fun a b : ρ => Before forward (key a) (key b) :=
    ⟨fun a b hab hba => absurd (before_trans hab hba) (before_irrefl forward _)⟩
  exact List.Pairwise.eq_of_mem_iff h h' (fun {r} => hm r)

theorem Ordered.mem_take {forward : Bool} {l : List ρ} (h : Ordered key forward l) {n : Nat}
    {z r : ρ} (hz : z ∈ l.take n) (hr : r ∈ l) (hzr : ¬Before forward (key z) (key r)) :
    r ∈ l.take n := by
  have ha : (l.take n ++ l.drop n).Pairwise fun a b => Before forward (key a) (key b) := by
    rw [List.take_append_drop]
    exact h
  rw [← List.take_append_drop n l] at hr
  obtain hr | hr := List.mem_append.mp hr
  · exact hr
  · exact absurd ((List.pairwise_append.mp ha).2.2 z hz r hr) hzr

theorem Ordered.before_last {forward : Bool} {l : List ρ} (h : Ordered key forward l) {z r : ρ}
    (hz : l.getLast? = some z) (hr : r ∈ l) : r = z ∨ Before forward (key r) (key z) := by
  obtain ⟨l', rfl⟩ := List.getLast?_eq_some_iff.mp hz
  obtain hr | hr := List.mem_append.mp hr
  · exact Or.inr ((List.pairwise_append.mp h).2.2 r hr z (by simp))
  · exact Or.inl (List.mem_singleton.mp hr)

variable (key)

/-- A page of the rows after a cursor: an ordered part of the table which, when it names
a next cursor, holds every row up to that cursor. -/
structure Page (forward : Bool) (rows : List ρ) (cursor : Option κ) (out : List ρ)
    (next : Option κ) : Prop where
  ordered : Ordered key forward out
  sound : ∀ r ∈ out, r ∈ rows ∧ After key forward cursor r
  last : ∀ k ∈ next, ∃ z, out.getLast? = some z ∧ key z = k
  covers : ∀ k ∈ next, ∀ r ∈ rows, After key forward cursor r →
    ¬Before forward k (key r) → r ∈ out

variable {key}
section
variable {forward : Bool} {rows : List ρ} {cursor next : Option κ} {out : List ρ}

theorem Page.of_take (l : List ρ) (n : Nat) (hl : Ordered key forward l)
    (hm : ∀ r, r ∈ l ↔ r ∈ rows ∧ After key forward cursor r)
    (hnext : ∀ k ∈ next, ∃ z, (l.take n).getLast? = some z ∧ key z = k) :
    Page key forward rows cursor (l.take n) next where
  ordered := List.Pairwise.sublist (List.take_sublist n l) hl
  sound r hr := (hm r).mp (List.mem_of_mem_take hr)
  last := hnext
  covers k hk r hr ha hb := by
    obtain ⟨z, hz, rfl⟩ := hnext k hk
    exact hl.mem_take (List.mem_of_getLast? hz) ((hm r).mpr ⟨hr, ha⟩) hb

theorem Page.not_before_next {k : κ} (h : Page key forward rows cursor out (some k))
    {r : ρ} (hr : r ∈ out) : ¬Before forward k (key r) := by
  obtain ⟨z, hz, rfl⟩ := h.last k rfl
  obtain rfl | hb := h.ordered.before_last hz hr
  · exact before_irrefl forward (key r)
  · exact fun hb' => before_irrefl forward _ (before_trans hb hb')

theorem Page.ordered_append {k : κ} (h : Page key forward rows cursor out (some k))
    {rest : List ρ} (hr : Ordered key forward rest)
    (ha : ∀ r ∈ rest, After key forward (some k) r) : Ordered key forward (out ++ rest) := by
  refine List.pairwise_append.mpr ⟨h.ordered, hr, ?_⟩
  intro a haout b hb
  have hk := h.not_before_next haout
  have hkb := (after_some forward k b).mp (ha b hb)
  obtain hab | hab | hab := before_or_eq_or_before forward (key a) (key b)
  · exact hab
  · exact absurd (hab ▸ hkb) hk
  · exact absurd (before_trans hkb hab) hk

theorem Page.after_of_next {k : κ} (h : Page key forward rows cursor out (some k)) {r : ρ}
    (hr : After key forward (some k) r) : After key forward cursor r := by
  obtain ⟨z, hz, rfl⟩ := h.last k rfl
  intro c hc
  exact before_trans ((h.sound z (List.mem_of_getLast? hz)).2 c hc)
    ((after_some forward (key z) r).mp hr)

/-- A page fetched without a cursor, all of whose rows lie after some key, is a page from
that key. -/
theorem Page.restart {k : κ} (h : Page key forward rows none out next)
    (ha : ∀ r ∈ out, After key forward (some k) r) :
    Page key forward rows (some k) out next where
  ordered := h.ordered
  sound r hr := ⟨(h.sound r hr).1, ha r hr⟩
  last := h.last
  covers k' hk r hr _ hb := h.covers k' hk r hr (after_none forward r) hb

theorem Page.remaining_lt {k : κ} (h : Page key forward rows cursor out (some k)) (table : List ρ)
    (ht : ∀ r ∈ out, r ∈ table) :
    (table.filter fun r => After key forward (some k) r).length <
      (table.filter fun r => After key forward cursor r).length := by
  obtain ⟨z, hz, rfl⟩ := h.last k rfl
  have hzout : z ∈ out := List.mem_of_getLast? hz
  have hsub : (table.filter fun r => After key forward (some (key z)) r) =
      (table.filter fun r => After key forward cursor r).filter
        fun r => After key forward (some (key z)) r := by
    rw [List.filter_filter]
    apply List.filter_congr
    intro r _
    by_cases ha : After key forward (some (key z)) r
    · simp [ha, h.after_of_next ha]
    · simp [ha]
  rw [hsub, List.length_filter_lt_length_iff_exists]
  refine ⟨z, List.mem_filter.mpr ⟨ht z hzout, by simpa using (h.sound z hzout).2⟩, ?_⟩
  simpa using before_irrefl forward (key z)

end

variable (key)

/-- The table lost a lower set of its keys: every lost row is below every kept row. -/
def Shrinks (old new : List ρ) : Prop :=
  (∀ r ∈ new, r ∈ old) ∧ ∀ d ∈ old, d ∉ new → ∀ r ∈ new, key d < key r

variable {key}

theorem Shrinks.refl (rows : List ρ) : Shrinks key rows rows :=
  ⟨fun _ h => h, fun _ h hn => absurd h hn⟩

theorem Shrinks.trans {a b c : List ρ} (h : Shrinks key a b) (h' : Shrinks key b c) :
    Shrinks key a c := by
  refine ⟨fun r hr => h.1 r (h'.1 r hr), ?_⟩
  intro d hd hdc r hr
  by_cases hdb : d ∈ b
  · exact h'.2 d hdb hdc r hr
  · exact h.2 d hd hdb r (h'.1 r hr)

variable (key)

/-- How many rows of a table stand before a row in its listing. -/
def rank (forward : Bool) (rows : List ρ) (r : ρ) : Nat :=
  rows.countP fun x => Before forward (key x) (key r)

variable {key}
section
variable {forward : Bool} {rows l : List ρ} {r x : ρ}

theorem Ordered.rank_eq {before after : List ρ} (h : Ordered key forward (before ++ r :: after)) :
    rank key forward (before ++ r :: after) r = before.length := by
  obtain ⟨-, hafter, hbefore⟩ := List.pairwise_append.mp h
  have hall : before.countP (fun x => Before forward (key x) (key r)) = before.length := by
    apply List.countP_eq_length.mpr
    intro x hx
    simpa using hbefore x hx r (by simp)
  have hnone : (r :: after).countP (fun x => Before forward (key x) (key r)) = 0 := by
    apply List.countP_eq_zero.mpr
    intro x hx
    obtain rfl | hx := List.mem_cons.mp hx
    · simpa using before_irrefl forward (key x)
    · have hrx := (List.pairwise_cons.mp hafter).1 x hx
      simpa using fun hxr => before_irrefl forward _ (before_trans hrx hxr)
  rw [rank, List.countP_append, hall, hnone, Nat.add_zero]

theorem Ordered.mem_take_iff (h : Ordered key forward l) (hr : r ∈ l) (n : Nat) :
    r ∈ l.take n ↔ rank key forward l r < n := by
  obtain ⟨before, after, rfl⟩ := List.append_of_mem hr
  have hnot : r ∉ before := by
    intro hmem
    exact before_irrefl forward _ ((List.pairwise_append.mp h).2.2 r hmem r (by simp))
  rw [h.rank_eq, List.take_append, List.mem_append]
  constructor
  · intro hmem
    obtain hmem | hmem := hmem
    · exact absurd (List.mem_of_mem_take hmem) hnot
    · by_contra hle
      rw [Nat.sub_eq_zero_of_le (Nat.le_of_not_lt hle)] at hmem
      cases hmem
  · intro hlt
    obtain ⟨k, hk⟩ : ∃ k, n - before.length = k + 1 := ⟨n - before.length - 1, by omega⟩
    rw [hk]
    exact Or.inr List.mem_cons_self

theorem rank_perm {rows' : List ρ} (h : rows.Perm rows') (r : ρ) :
    rank key forward rows r = rank key forward rows' r :=
  h.countP_eq _

theorem rank_filter {p : ρ → Bool} (h : ∀ x ∈ rows, Before forward (key x) (key r) → p x = true) :
    rank key forward (rows.filter p) r = rank key forward rows r := by
  rw [rank, List.countP_filter, rank]
  apply List.countP_congr
  intro x hx
  simpa using h x hx

theorem rank_sublist (h : l.Sublist rows) (r : ρ) :
    rank key forward l r ≤ rank key forward rows r :=
  h.countP_le

theorem rank_mono (h : ¬Before forward (key r) (key x)) :
    rank key forward rows x ≤ rank key forward rows r := by
  apply List.countP_mono_left
  intro y _ hy
  rw [decide_eq_true_eq] at hy ⊢
  obtain hyr | heq | hry := before_or_eq_or_before forward (key y) (key r)
  · exact hyr
  · exact absurd (heq ▸ hy) h
  · exact absurd (before_trans hry hy) h

theorem Ordered.mem_drop_iff (h : Ordered key forward l) (hr : r ∈ l) (n : Nat) :
    r ∈ l.drop n ↔ n ≤ rank key forward l r := by
  rw [← Nat.not_lt, ← h.mem_take_iff hr n]
  rw [← List.take_append_drop n l] at h hr
  constructor
  · intro hdrop htake
    exact before_irrefl forward _ ((List.pairwise_append.mp h).2.2 r htake r hdrop)
  · intro hnot
    exact (List.mem_append.mp hr).resolve_left hnot

theorem Ordered.filter_rank (h : Ordered key forward l) (n : Nat) :
    (l.filter fun x => rank key forward l x < n) = l.take n := by
  have hkept : ∀ x ∈ l.take n, rank key forward l x < n := by
    intro x hx
    exact (h.mem_take_iff (List.mem_of_mem_take hx) n).mp hx
  have hrest : ∀ x ∈ l.drop n, ¬rank key forward l x < n := by
    intro x hx
    exact Nat.not_lt.mpr ((h.mem_drop_iff (List.mem_of_mem_drop hx) n).mp hx)
  have hfilter : ((l.take n ++ l.drop n).filter fun x => rank key forward l x < n) = l.take n := by
    rw [List.filter_append, List.filter_eq_self.mpr (by simpa using hkept),
      List.filter_eq_nil_iff.mpr (by simpa using hrest), List.append_nil]
  rwa [List.take_append_drop] at hfilter

theorem mem_listing_drop (hn : (rows.map key).Nodup) (hr : r ∈ rows) (forward : Bool) (n : Nat) :
    r ∈ (listing key forward rows).drop n ↔ n ≤ rank key forward rows r := by
  rw [(listing_ordered forward rows hn).mem_drop_iff (mem_listing.mpr hr) n,
    rank_perm (listing_perm forward rows)]

theorem length_filter_rank (hn : (rows.map key).Nodup) (forward : Bool) (n : Nat) :
    (rows.filter fun x => rank key forward rows x < n).length = min rows.length n := by
  have hp := @listing_perm _ _ _ key forward rows
  have hrank : (fun x => decide (rank key forward rows x < n)) =
      fun x => decide (rank key forward (listing key forward rows) x < n) := by
    funext x
    rw [rank_perm hp]
  rw [hrank, ← (hp.filter _).length_eq, (listing_ordered forward rows hn).filter_rank,
    List.length_take, hp.length_eq, Nat.min_comm]

end

section Clients
variable {σ ε γ ε' γ' : Type*}

/-- A client fetches pages and passes the cursor of each one back until none is returned, for at
most n fetches, while the state changes from fetch to fetch: what it has received, and whether it
saw the end. -/
def pages (next : σ → σ) (fetch : σ → Option γ → Option (List ε × Option γ)) :
    Nat → σ → Option γ → List ε × Bool
  | 0, _, _ => ([], false)
  | n+1, s, cursor =>
    match fetch s cursor with
    | none => ([], false)
    | some (page, none) => (page, true)
    | some (page, some cursor) =>
      let rest := pages next fetch n (next s) (some cursor)
      (page ++ rest.1, rest.2)

/-- Clients that write entries and cursors differently fetch the same pages. -/
theorem pages_map {next : σ → σ} {fetch : σ → Option γ → Option (List ε × Option γ)}
    {fetch' : σ → Option γ' → Option (List ε' × Option γ')} {entry : ε → ε'} {cursor : γ → γ'}
    {Ready : σ → Prop} (hnext : ∀ s, Ready s → Ready (next s))
    (hfetch : ∀ s c, Ready s → fetch' s (c.map cursor) =
      (fetch s c).map fun p => (p.1.map entry, p.2.map cursor))
    (n : Nat) (s : σ) (c : Option γ) (hs : Ready s) :
    pages next fetch' n s (c.map cursor) =
      ((pages next fetch n s c).1.map entry, (pages next fetch n s c).2) := by
  induction n generalizing s c with
  | zero => rfl
  | succ n ih =>
    rw [pages, hfetch s c hs, pages]
    cases fetch s c with
    | none => rfl
    | some p =>
      obtain ⟨page, c'⟩ := p
      cases c' with
      | none => rfl
      | some c' =>
        have hrest := ih (next s) (some c') (hnext s hs)
        rw [Option.map_some] at hrest
        simp only [Option.map_some, hrest, List.map_append]

end Clients

end RsWaku.Keyset
