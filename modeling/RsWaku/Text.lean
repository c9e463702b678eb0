import Mathlib.Data.List.Infix

/-! The functions of Rust's `str` that take a text apart, on the characters of a string, and the
texts of decimal numbers. -/
namespace RsWaku.Text

/-- `char::is_whitespace`: the property White_Space of Unicode. -/
def isWhitespace (c : Char) : Bool :=
  let n := c.toNat
  (9 ≤ n && n ≤ 13) || (0x2000 ≤ n && n ≤ 0x200a) ||
    [0x20, 0x85, 0xa0, 0x1680, 0x2028, 0x2029, 0x202f, 0x205f, 0x3000].contains n

def startsWith (s pat : String) : Bool := pat.toList.isPrefixOf s.toList

def stripPrefix (s pat : String) : Option String :=
  (pat.toList.isPrefixOf? s.toList).map String.ofList

def cut (pat : List Char) : List Char → Option (List Char × List Char)
  | [] => if pat = [] then some ([], []) else none
  | c :: s =>
    match pat.isPrefixOf? (c :: s) with
    | some rest => some ([], rest)
    | none => (cut pat s).map fun parts => (c :: parts.1, parts.2)

/-- `str::split_once`, also `find` with the two slices around what it finds. -/
def splitOnce (s pat : String) : Option (String × String) :=
  (cut pat.toList s.toList).map fun parts => (String.ofList parts.1, String.ofList parts.2)

def split (s : String) (sep : Char) : List String := (s.toList.splitOn sep).map String.ofList

def splitWhitespace (s : String) : List String :=
  ((s.toList.splitOnP isWhitespace).filter (· ≠ [])).map String.ofList

def trim (s : String) : String :=
  String.ofList ((s.toList.dropWhile isWhitespace).reverse.dropWhile isWhitespace).reverse

theorem startsWith_iff {s pat : String} : startsWith s pat = true ↔ ∃ rest, s = pat ++ rest := by
  rw [startsWith, List.isPrefixOf_iff_prefix]
  constructor
  · intro ⟨rest, h⟩
    refine ⟨String.ofList rest, String.toList_inj.mp ?_⟩
    rw [String.toList_append, String.toList_ofList, h]
  · intro ⟨rest, h⟩
    exact ⟨rest.toList, by rw [h, String.toList_append]⟩

theorem stripPrefix_eq_some {s pat rest : String} :
    stripPrefix s pat = some rest ↔ s = pat ++ rest := by
  rw [stripPrefix, Option.map_eq_some_iff]
  constructor
  · intro ⟨l, hl, hrest⟩
    rw [← String.toList_inj, String.toList_append, ← hrest, String.toList_ofList]
    exact (List.isPrefixOf?_eq_some_iff_append_eq.mp hl).symm
  · intro h
    refine ⟨rest.toList, List.isPrefixOf?_eq_some_iff_append_eq.mpr ?_, String.ofList_toList⟩
    rw [h, String.toList_append]

def FirstOccurs (pat s a b : List Char) : Prop :=
  s = a ++ pat ++ b ∧ ∀ a' b', s = a' ++ pat ++ b' → a.length ≤ a'.length

theorem firstOccurs_nil {pat a b : List Char} :
    FirstOccurs pat [] a b ↔ pat = [] ∧ a = [] ∧ b = [] := by
  constructor
  · intro ⟨hs, _⟩
    simp only [List.nil_eq, List.append_eq_nil_iff] at hs
    exact ⟨hs.1.2, hs.1.1, hs.2⟩
  · intro ⟨hpat, ha, hb⟩
    subst hpat ha hb
    exact ⟨rfl, fun _ _ _ => Nat.zero_le _⟩

theorem firstOccurs_here {pat s a b rest : List Char} (hs : pat ++ rest = s) :
    FirstOccurs pat s a b ↔ a = [] ∧ b = rest := by
  constructor
  · intro ⟨hs', hfirst⟩
    have ha : a = [] := List.eq_nil_of_length_eq_zero (Nat.le_zero.mp (hfirst [] rest hs.symm))
    subst ha
    exact ⟨rfl, (List.append_cancel_left (hs.trans hs')).symm⟩
  · intro ⟨ha, hb⟩
    subst ha hb
    exact ⟨hs.symm, fun _ _ _ => Nat.zero_le _⟩

theorem firstOccurs_later {pat s a b : List Char} {c : Char} (hnot : ¬pat <+: c :: s) :
    FirstOccurs pat (c :: s) a b ↔ ∃ a', a = c :: a' ∧ FirstOccurs pat s a' b := by
  have hlater (a b : List Char) (h : c :: s = a ++ pat ++ b) :
      ∃ a', a = c :: a' ∧ s = a' ++ pat ++ b := by
    cases a with
    | nil => exact absurd ⟨b, h.symm⟩ hnot
    | cons x a =>
      obtain ⟨hx, htail⟩ := List.cons.inj h
      exact ⟨a, by rw [hx], htail⟩
  constructor
  · intro ⟨hs, hfirst⟩
    obtain ⟨a, rfl, hinner⟩ := hlater a b hs
    refine ⟨a, rfl, hinner, fun a' b' hoccurs => ?_⟩
    exact Nat.le_of_succ_le_succ (hfirst (c :: a') b' (by rw [hoccurs]; rfl))
  · rintro ⟨a, rfl, hs, hfirst⟩
    refine ⟨by rw [hs]; rfl, fun a' b' hoccurs => ?_⟩
    obtain ⟨a', rfl, hinner⟩ := hlater a' b' hoccurs
    exact Nat.succ_le_succ (hfirst a' b' hinner)

theorem cut_eq_some {pat s a b : List Char} :
    cut pat s = some (a, b) ↔ FirstOccurs pat s a b := by
  induction s generalizing a with
  | nil => simp [cut, firstOccurs_nil, eq_comm]
  | cons c s ih =>
    unfold cut
    split
    case h_1 rest hrest =>
      rw [firstOccurs_here (List.isPrefixOf?_eq_some_iff_append_eq.mp hrest)]
      simp [eq_comm]
    case h_2 hnone =>
      have hnot : ¬pat <+: c :: s := by
        intro ⟨rest, hrest⟩
        rw [List.isPrefixOf?_eq_some_iff_append_eq.mpr hrest] at hnone
        cases hnone
      rw [firstOccurs_later hnot, Option.map_eq_some_iff]
      constructor
      · intro ⟨⟨a', b'⟩, htail, hparts⟩
        cases hparts
        exact ⟨a', rfl, ih.mp htail⟩
      · rintro ⟨a', rfl, hfirst⟩
        exact ⟨(a', b), ih.mpr hfirst, rfl⟩

theorem splitOnce_eq_some {s pat a b : String} : splitOnce s pat = some (a, b) ↔
    s = a ++ pat ++ b ∧ ∀ a' b', s = a' ++ pat ++ b' → a.length ≤ a'.length := by
  have hchars (a b : String) :
      s = a ++ pat ++ b ↔ s.toList = a.toList ++ pat.toList ++ b.toList := by
    rw [← String.toList_inj, String.toList_append, String.toList_append]
  have hcut : splitOnce s pat = some (a, b) ↔
      cut pat.toList s.toList = some (a.toList, b.toList) := by
    rw [splitOnce, Option.map_eq_some_iff]
    constructor
    · intro ⟨parts, hparts, heq⟩
      cases heq
      rw [hparts, String.toList_ofList, String.toList_ofList]
    · intro h
      exact ⟨_, h, by rw [String.ofList_toList, String.ofList_toList]⟩
  rw [hcut, cut_eq_some, FirstOccurs, hchars]
  refine and_congr_right fun _ => ⟨fun hfirst a' b' h => ?_, fun hfirst a' b' h => ?_⟩
  · rw [← String.length_toList, ← String.length_toList]
    exact hfirst a'.toList b'.toList ((hchars a' b').mp h)
  · have hle := hfirst (String.ofList a') (String.ofList b')
      ((hchars _ _).mpr (by rw [h, String.toList_ofList, String.toList_ofList]))
    rwa [← String.length_toList, String.length_ofList] at hle

example : splitOnce "k@d@e" "@" = some ("k", "d@e") := by decide +kernel

theorem not_mem_of_mem_splitOn {sep : Char} {l p : List Char} (h : p ∈ l.splitOn sep) :
    sep ∉ p := by
  induction l generalizing p with
  | nil =>
    rw [List.splitOn_nil, List.mem_singleton] at h
    rw [h]
    exact List.not_mem_nil
  | cons c l ih =>
    rw [List.splitOn_cons_eq_if_modifyHead] at h
    split at h
    case isTrue =>
      obtain rfl | hp := List.mem_cons.mp h
      · exact List.not_mem_nil
      · exact ih hp
    case isFalse hsep =>
      -- the first piece of the tail grows by c
      obtain ⟨q, qs, hsplit⟩ := List.exists_cons_of_ne_nil (List.splitOn_ne_nil sep l)
      rw [hsplit, List.modifyHead_cons] at h
      obtain rfl | hp := List.mem_cons.mp h
      · have hq : sep ∉ q := ih (hsplit ▸ List.mem_cons_self)
        intro hmem
        obtain rfl | hmem := List.mem_cons.mp hmem
        · exact hsep (beq_self_eq_true _)
        · exact hq hmem
      · exact ih (hsplit ▸ List.mem_cons_of_mem q hp)

theorem split_eq_iff {s : String} {sep : Char} {parts : List String} :
    split s sep = parts ↔ parts ≠ [] ∧ (∀ p ∈ parts, sep ∉ p.toList) ∧
      s.toList = [sep].intercalate (parts.map String.toList) := by
  constructor
  · rintro rfl
    refine ⟨fun hnil => List.splitOn_ne_nil sep s.toList (List.map_eq_nil_iff.mp hnil), ?_, ?_⟩
    · intro p hp
      obtain ⟨l, hl, rfl⟩ := List.mem_map.mp hp
      rw [String.toList_ofList]
      exact not_mem_of_mem_splitOn hl
    · have hid : (s.toList.splitOn sep).map (String.toList ∘ String.ofList) =
          s.toList.splitOn sep := by simp [Function.comp_def]
      rw [split, List.map_map, hid, List.intercalate_splitOn]
  · intro ⟨hne, hsep, hs⟩
    have hall : ∀ l ∈ parts.map String.toList, sep ∉ l := by
      intro l hl
      obtain ⟨p, hp, rfl⟩ := List.mem_map.mp hl
      exact hsep p hp
    rw [split, hs, List.splitOn_intercalate sep hall (by simpa using hne), List.map_map]
    simp [Function.comp_def]

theorem exists_digitChar_of_isDigit {c : Char} (h : c.isDigit = true) :
    ∃ d < 10, c = Nat.digitChar d := by
  rw [Char.isDigit, Bool.and_eq_true, decide_eq_true_eq, decide_eq_true_eq] at h
  have hlow : 48 ≤ c.toNat := h.1
  have hhigh : c.toNat ≤ 57 := h.2
  refine ⟨c.toNat - 48, by omega, Char.toNat_inj.mp ?_⟩
  rw [Nat.toNat_digitChar_of_lt_ten (by omega)]
  omega

theorem ofDigitChars_concat {ds : List Char} {d : Nat} (hd : d < 10) :
    Nat.ofDigitChars 10 (ds ++ [d.digitChar]) 0 = 10 * Nat.ofDigitChars 10 ds 0 + d := by
  rw [Nat.ofDigitChars_append, Nat.ofDigitChars_cons_digitChar_of_lt_ten hd, Nat.ofDigitChars_nil]

theorem eq_zeros_append_toDigits {ds : List Char} (hne : ds ≠ [])
    (hdigits : ∀ c ∈ ds, c.isDigit = true) :
    ∃ k, ds = List.replicate k '0' ++ Nat.toDigits 10 (Nat.ofDigitChars 10 ds 0) := by
  induction ds using List.reverseRecOn with
  | nil => exact absurd rfl hne
  | append_singleton ds c ih =>
    obtain ⟨d, hd, rfl⟩ := exists_digitChar_of_isDigit (hdigits c (by simp))
    rw [ofDigitChars_concat hd]
    by_cases hnil : ds = []
    · rw [hnil, Nat.ofDigitChars_nil, Nat.mul_zero, Nat.zero_add, Nat.toDigits_of_lt_base hd]
      exact ⟨0, rfl⟩
    · obtain ⟨k, hk⟩ := ih hnil fun c hc => hdigits c (List.mem_append_left _ hc)
      by_cases hzero : Nat.ofDigitChars 10 ds 0 = 0
      · -- only zeros so far, and they all lead
        refine ⟨k + 1, ?_⟩
        rw [hzero, Nat.toDigits_zero, ← List.replicate_succ'] at hk
        rw [hzero, Nat.mul_zero, Nat.zero_add, Nat.toDigits_of_lt_base hd, hk]
      · refine ⟨k, ?_⟩
        rw [← Nat.toDigits_append_toDigits (by decide) (Nat.pos_of_ne_zero hzero) hd,
          ← List.append_assoc, ← hk, Nat.toDigits_of_lt_base hd]

theorem digits_iff {ds : List Char} {n : Nat} :
    (ds ≠ [] ∧ (∀ c ∈ ds, c.isDigit = true) ∧ Nat.ofDigitChars 10 ds 0 = n) ↔
      ∃ k, ds = List.replicate k '0' ++ Nat.toDigits 10 n := by
  constructor
  · intro ⟨hne, hdigits, hvalue⟩
    rw [← hvalue]
    exact eq_zeros_append_toDigits hne hdigits
  · rintro ⟨k, rfl⟩
    refine ⟨fun h => Nat.toDigits_ne_nil (List.append_eq_nil_iff.mp h).2, fun c hc => ?_, ?_⟩
    · obtain hzero | hdigit := List.mem_append.mp hc
      · rw [List.eq_of_mem_replicate hzero]
        rfl
      · exact Nat.isDigit_of_mem_toDigits (by decide) (by decide) hdigit
    · rw [Nat.ofDigitChars_append, Nat.ofDigitChars_replicate_zero, Nat.mul_zero,
        Nat.ofDigitChars_ten_toDigits]

end RsWaku.Text
