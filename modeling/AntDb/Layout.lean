/-
  Layouts: which rows each page holds, where each row lives, and how pages are chained.

  A layout forgets what the rows hold.  A row is placed in the greatest page, in a fresh one, or, if it
  is larger than a page, in a fresh page of its own with continuation pages behind it (`Placed`).
  `Sound` is what every placement keeps; `Laid` adds that rows larger than a page head their chains.
-/
import AntDb.Access
import AntDb.Lib.Linked

namespace AntDb

open Linked

/-- A page without the contents of its rows. -/
@[ext] structure Outline where
  rows : Finset RowID
  usedBytes : ℕ
  capacity : ℕ
  nextPage : Option PageID
  isOverflow : Bool

namespace Outline

def blank (capacity : ℕ) : Outline := ⟨∅, 0, capacity, none, false⟩

def continuation (capacity : ℕ) : Outline := ⟨∅, capacity, capacity, none, true⟩

def append (o : Outline) (r : RowID) (size : ℕ) : Outline :=
  { o with rows := insert r o.rows, usedBytes := saturatingAdd o.usedBytes size }

def linkedTo (o : Outline) (p : PageID) : Outline := { o with nextPage := some p }

end Outline

/-- The pages by id, the page of each row, and the id of the next fresh page. -/
@[ext] structure Layout where
  page : PageID → Option Outline
  home : RowID → Option PageID
  fresh : PageID

namespace Layout

variable {ps size n : ℕ} {sizes : RowID → ℕ} {s s' : Layout} {p q previous : PageID} {qs : List PageID}
  {r : RowID} {o : Outline}

def link (s : Layout) (p : PageID) : Option PageID := (s.page p).bind (·.nextPage)

/-- A fresh page is opened. -/
def opened (s : Layout) (o : Outline) : Layout :=
  { s with page := Function.update s.page s.fresh (some o), fresh := s.fresh + 1 }

/-- A row goes to a page. -/
def put (s : Layout) (p : PageID) (r : RowID) (size : ℕ) : Layout :=
  { s with
    page := Function.update s.page p ((s.page p).map (·.append r size))
    home := Function.update s.home r (some p) }

/-- A continuation page is opened behind `previous`. -/
def extended (ps : ℕ) (s : Layout) (previous : PageID) : Layout where
  page := Function.update (s.opened (.continuation ps)).page previous
    ((s.page previous).map (·.linkedTo s.fresh))
  home := s.home
  fresh := s.fresh + 1

def chained (ps : ℕ) : ℕ → PageID → Layout → Layout
  | 0, _, s => s
  | n + 1, previous, s => chained ps n s.fresh (s.extended ps previous)

/-- Where a row of `size` bytes may go, for pages of `ps` bytes. -/
inductive Placed (ps : ℕ) (s : Layout) (r : RowID) (size : ℕ) : Layout → Prop
  | tail {p : PageID} {o : Outline} (hsize : size ≤ ps) (hp : s.page p = some o)
    (hlast : ∀ q o', s.page q = some o' → q ≤ p) (hplain : o.isOverflow = false)
    (hroom : saturatingAdd o.usedBytes size ≤ o.capacity) : Placed ps s r size (s.put p r size)
  | fresh (hsize : size ≤ ps) :
    Placed ps s r size ((s.opened (.blank ps)).put s.fresh r size)
  | chain (hsize : ps < size) : Placed ps s r size
    (((s.opened (.blank ps)).put s.fresh r size).chained ps (Table.extraPages size ps) s.fresh)

/-! ## Pages -/

theorem page_opened : (s.opened o).page q = if q = s.fresh then some o else s.page q :=
  Function.update_apply ..

theorem page_put : (s.put p r size).page q =
    if q = p then (s.page p).map (·.append r size) else s.page q :=
  Function.update_apply ..

theorem home_put {r' : RowID} : (s.put p r size).home r' = if r' = r then some p else s.home r' :=
  Function.update_apply ..

theorem page_extended : (s.extended ps previous).page q =
    if q = previous then (s.page previous).map (·.linkedTo s.fresh)
      else if q = s.fresh then some (.continuation ps) else s.page q :=
  (Function.update_apply ..).trans (by rw [page_opened])

theorem page_opened_self : (s.opened o).page s.fresh = some o := by rw [page_opened, if_pos rfl]

theorem page_opened_of_ne (hq : q ≠ s.fresh) : (s.opened o).page q = s.page q := by
  rw [page_opened, if_neg hq]

theorem page_put_self (hp : s.page p = some o) : (s.put p r size).page p = some (o.append r size) := by
  rw [page_put, if_pos rfl, hp, Option.map_some]

theorem page_put_of_ne (hq : q ≠ p) : (s.put p r size).page q = s.page q := by rw [page_put, if_neg hq]

theorem page_extended_previous (hp : s.page previous = some o) :
    (s.extended ps previous).page previous = some (o.linkedTo s.fresh) := by
  rw [page_extended, if_pos rfl, hp, Option.map_some]

theorem page_extended_fresh (hne : s.fresh ≠ previous) :
    (s.extended ps previous).page s.fresh = some (.continuation ps) := by
  rw [page_extended, if_neg hne, if_pos rfl]

theorem page_extended_of_ne (hq : q ≠ previous) (hf : q ≠ s.fresh) :
    (s.extended ps previous).page q = s.page q := by
  rw [page_extended, if_neg hq, if_neg hf]

/-! ## Sound layouts -/

/-- Rows live on the page they are mapped to and on no other; continuation pages hold no rows; links
    lead forward to continuation pages and never meet. -/
structure Sound (s : Layout) : Prop where
  lt : ∀ p o, s.page p = some o → p < s.fresh
  homed : ∀ p o, s.page p = some o → ∀ r ∈ o.rows, s.home r = some p
  located : ∀ r p, s.home r = some p → ∃ o, s.page p = some o ∧ r ∈ o.rows
  vacant : ∀ p o, s.page p = some o → o.isOverflow = true → o.rows = ∅
  forward : ∀ p q, s.link p = some q → p < q
  target : ∀ p q, s.link p = some q → ∃ o, s.page q = some o ∧ o.isOverflow = true
  injective : ∀ p p' q, s.link p = some q → s.link p' = some q → p = p'

theorem link_eq_some : s.link p = some q ↔ ∃ o, s.page p = some o ∧ o.nextPage = some q :=
  Option.bind_eq_some_iff

theorem link_of_page (hp : s.page p = some o) : s.link p = o.nextPage := by
  rw [link, hp, Option.bind_some]

theorem link_congr (h : s'.page p = s.page p) : s'.link p = s.link p := by rw [link, link, h]

namespace Sound

theorem page_fresh (h : s.Sound) : s.page s.fresh = none := by
  cases hp : s.page s.fresh with
  | none => rfl
  | some o => exact absurd (h.lt s.fresh o hp) (lt_irrefl _)

theorem ne_fresh (h : s.Sound) (hp : s.page p = some o) : p ≠ s.fresh := (h.lt p o hp).ne

/-- A page with rows is not linked to. -/
theorem not_linked (h : s.Sound) (hp : s.page p = some o) (hr : r ∈ o.rows) : s.link q ≠ some p := by
  intro hq
  obtain ⟨o', hp', hover⟩ := h.target q p hq
  obtain rfl := Option.some.inj (hp.symm.trans hp')
  rw [h.vacant p o hp hover] at hr
  exact absurd hr (Finset.notMem_empty r)

theorem link_opened (h : s.Sound) (ho : o.nextPage = none) : (s.opened o).link = s.link := by
  funext q
  by_cases hq : q = s.fresh
  · subst hq
    rw [link_of_page page_opened_self, ho, link, h.page_fresh]
    rfl
  · exact link_congr (page_opened_of_ne hq)

theorem opened (h : s.Sound) (hrows : o.rows = ∅) (hnext : o.nextPage = none) : (s.opened o).Sound := by
  have hold : ∀ p o', s.page p = some o' → (s.opened o).page p = some o' := fun p o' hp =>
    (page_opened_of_ne (h.ne_fresh hp)).trans hp
  constructor
  · intro p o' hp
    by_cases hf : p = s.fresh
    · exact hf ▸ Nat.lt_succ_self _
    · rw [page_opened_of_ne hf] at hp
      exact Nat.lt_succ_of_lt (h.lt p o' hp)
  · intro p o' hp r hr
    by_cases hf : p = s.fresh
    · subst hf
      obtain rfl := Option.some.inj (page_opened_self.symm.trans hp)
      rw [hrows] at hr
      exact absurd hr (Finset.notMem_empty r)
    · rw [page_opened_of_ne hf] at hp
      exact h.homed p o' hp r hr
  · intro r p hp
    obtain ⟨o', ho', hr⟩ := h.located r p hp
    exact ⟨o', hold p o' ho', hr⟩
  · intro p o' hp hover
    by_cases hf : p = s.fresh
    · subst hf
      obtain rfl := Option.some.inj (page_opened_self.symm.trans hp)
      exact hrows
    · rw [page_opened_of_ne hf] at hp
      exact h.vacant p o' hp hover
  · rw [h.link_opened hnext]
    exact h.forward
  · intro p q hlink
    rw [h.link_opened hnext] at hlink
    obtain ⟨o', hq, hover⟩ := h.target p q hlink
    exact ⟨o', hold q o' hq, hover⟩
  · rw [h.link_opened hnext]
    exact h.injective

theorem link_put (hp : s.page p = some o) : (s.put p r size).link = s.link := by
  funext q
  by_cases hq : q = p
  · subst hq
    rw [link_of_page (page_put_self hp), link_of_page hp]
    rfl
  · exact link_congr (page_put_of_ne hq)

theorem put (h : s.Sound) (hr : s.home r = none) (hp : s.page p = some o) (hplain : o.isOverflow = false) :
    (s.put p r size).Sound := by
  have hself : (s.put p r size).page p = some (o.append r size) := page_put_self hp
  have hhome : ∀ r', r' ≠ r → (s.put p r size).home r' = s.home r' := fun r' hne =>
    Function.update_of_ne hne ..
  have hhere : (s.put p r size).home r = some p := Function.update_self ..
  constructor
  · intro q o' hq
    by_cases hqp : q = p
    · exact hqp ▸ h.lt p o hp
    · rw [page_put_of_ne hqp] at hq
      exact h.lt q o' hq
  · intro q o' hq r' hr'
    by_cases hqp : q = p
    · subst hqp
      obtain rfl := Option.some.inj (hself.symm.trans hq)
      rcases Finset.mem_insert.1 hr' with rfl | hr'
      · exact hhere
      · have hold := h.homed q o hp r' hr'
        have hne : r' ≠ r := fun he => by
          rw [he, hr] at hold
          cases hold
        rw [hhome r' hne, hold]
    · rw [page_put_of_ne hqp] at hq
      have hold := h.homed q o' hq r' hr'
      have hne : r' ≠ r := fun he => by
        rw [he, hr] at hold
        cases hold
      rw [hhome r' hne, hold]
  · intro r' q hq
    by_cases hne : r' = r
    · subst hne
      obtain rfl := Option.some.inj (hhere.symm.trans hq)
      exact ⟨_, hself, Finset.mem_insert_self ..⟩
    · rw [hhome r' hne] at hq
      obtain ⟨o', ho', hmem⟩ := h.located r' q hq
      by_cases hqp : q = p
      · subst hqp
        obtain rfl := Option.some.inj (hp.symm.trans ho')
        exact ⟨_, hself, Finset.mem_insert_of_mem hmem⟩
      · exact ⟨o', (page_put_of_ne hqp).trans ho', hmem⟩
  · intro q o' hq hover
    by_cases hqp : q = p
    · subst hqp
      obtain rfl := Option.some.inj (hself.symm.trans hq)
      exact absurd (hplain.symm.trans hover) Bool.false_ne_true
    · rw [page_put_of_ne hqp] at hq
      exact h.vacant q o' hq hover
  · rw [link_put hp]
    exact h.forward
  · intro q q' hlink
    rw [link_put hp] at hlink
    obtain ⟨o', hq', hover⟩ := h.target q q' hlink
    have hne : q' ≠ p := fun he => by
      rw [he, hp] at hq'
      obtain rfl := Option.some.inj hq'
      exact absurd (hplain.symm.trans hover) Bool.false_ne_true
    exact ⟨o', (page_put_of_ne hne).trans hq', hover⟩
  · rw [link_put hp]
    exact h.injective

theorem link_extended (h : s.Sound) (hp : s.page previous = some o) :
    (s.extended ps previous).link = Function.update s.link previous (some s.fresh) := by
  funext q
  rw [Function.update_apply]
  split_ifs with hq
  · subst hq
    exact link_of_page (page_extended_previous hp)
  · by_cases hf : q = s.fresh
    · subst hf
      rw [link_of_page (page_extended_fresh hq), link, h.page_fresh]
      rfl
    · exact link_congr (page_extended_of_ne hq hf)

theorem extended (h : s.Sound) (ps : ℕ) (hp : s.page previous = some o) :
    (s.extended ps previous).Sound := by
  have hold : ∀ q o', s.page q = some o' → ∃ o'', (s.extended ps previous).page q = some o'' ∧
      o''.rows = o'.rows ∧ o''.isOverflow = o'.isOverflow := by
    intro q o' hq
    by_cases hqp : q = previous
    · subst hqp
      obtain rfl := Option.some.inj (hp.symm.trans hq)
      exact ⟨_, page_extended_previous hp, rfl, rfl⟩
    · exact ⟨o', (page_extended_of_ne hqp (h.ne_fresh hq)).trans hq, rfl, rfl⟩
  have hpage : ∀ q o', (s.extended ps previous).page q = some o' →
      (q = s.fresh ∧ o'.rows = ∅) ∨ ∃ o'', s.page q = some o'' ∧ o'.rows = o''.rows ∧
        o'.isOverflow = o''.isOverflow := by
    intro q o' hq
    rw [page_extended, hp, Option.map_some] at hq
    split_ifs at hq with hqp hf
    · exact Or.inr ⟨o, hqp ▸ hp, by rw [← Option.some.inj hq]; rfl, by rw [← Option.some.inj hq]; rfl⟩
    · exact Or.inl ⟨hf, by rw [← Option.some.inj hq]; rfl⟩
    · exact Or.inr ⟨o', hq, rfl, rfl⟩
  have hnot : ∀ q, s.link q ≠ some s.fresh := by
    intro q hq
    obtain ⟨o', hf, -⟩ := h.target q s.fresh hq
    exact h.ne_fresh hf rfl
  constructor
  · intro q o' hq
    rcases hpage q o' hq with ⟨rfl, -⟩ | ⟨o'', hq', -⟩
    · exact Nat.lt_succ_self _
    · exact Nat.lt_succ_of_lt (h.lt q o'' hq')
  · intro q o' hq r hr
    rcases hpage q o' hq with ⟨-, hempty⟩ | ⟨o'', hq', hrows, -⟩
    · rw [hempty] at hr
      exact absurd hr (Finset.notMem_empty r)
    · exact h.homed q o'' hq' r (hrows ▸ hr)
  · intro r q hq
    obtain ⟨o', hq', hr⟩ := h.located r q hq
    obtain ⟨o'', ho'', hrows, -⟩ := hold q o' hq'
    exact ⟨o'', ho'', hrows ▸ hr⟩
  · intro q o' hq hover
    rcases hpage q o' hq with ⟨-, hempty⟩ | ⟨o'', hq', hrows, hsame⟩
    · exact hempty
    · rw [hrows]
      exact h.vacant q o'' hq' (hsame ▸ hover)
  · intro q q' hlink
    rw [h.link_extended hp, Function.update_apply] at hlink
    split_ifs at hlink with hq
    · obtain rfl := Option.some.inj hlink
      exact hq ▸ h.lt previous o hp
    · exact h.forward q q' hlink
  · intro q q' hlink
    rw [h.link_extended hp, Function.update_apply] at hlink
    split_ifs at hlink with hq
    · obtain rfl := Option.some.inj hlink
      exact ⟨_, page_extended_fresh (h.ne_fresh hp).symm, rfl⟩
    · obtain ⟨o', hq', hover⟩ := h.target q q' hlink
      obtain ⟨o'', ho'', -, hsame⟩ := hold q' o' hq'
      exact ⟨o'', ho'', hsame.trans hover⟩
  · intro a b q ha hb
    rw [h.link_extended hp, Function.update_apply] at ha hb
    split_ifs at ha hb with hap hbp hbp
    · rw [hap, hbp]
    · rw [← ha] at hb
      exact absurd hb (hnot b)
    · rw [← hb] at ha
      exact absurd ha (hnot a)
    · exact h.injective a b q ha hb

end Sound

/-- The pages behind `previous`, and all the pages there were. -/
structure Chains (ps : ℕ) (s : Layout) (previous : PageID) (n : ℕ) (s' : Layout) : Prop where
  sound : s'.Sound
  home : s'.home = s.home
  fresh : s'.fresh = s.fresh + n
  frame : ∀ q, q ≠ previous → q < s.fresh → s'.page q = s.page q
  head : ∀ o, s.page previous = some o → ∃ o', s'.page previous = some o' ∧ o'.rows = o.rows ∧
    o'.usedBytes = o.usedBytes ∧ o'.capacity = o.capacity ∧ o'.isOverflow = o.isOverflow
  follows : Follows s'.link previous (List.range' s.fresh n)
  behind : ∀ q, s.fresh ≤ q → q < s.fresh + n → ∃ o, s'.page q = some o ∧ o.rows = ∅ ∧
    o.capacity = ps ∧ o.isOverflow = true

/-- Continuation pages get the ids that come next, in order. -/
theorem Sound.chained (h : s.Sound) (ps : ℕ) (hp : s.page previous = some o) (hend : o.nextPage = none)
    (n : ℕ) :
    s.Chains ps previous n (s.chained ps n previous) := by
  induction n generalizing s previous o with
  | zero =>
    exact ⟨h, rfl, rfl, fun _ _ _ => rfl, fun o' ho' => ⟨o', ho', rfl, rfl, rfl, rfl⟩,
      (link_of_page hp).trans hend, fun q hle hlt => absurd hle (not_le.2 hlt)⟩
  | succ n ih =>
    have hne : s.fresh ≠ previous := (h.ne_fresh hp).symm
    have hprevious : (s.extended ps previous).page previous = some (o.linkedTo s.fresh) :=
      page_extended_previous hp
    obtain ⟨hsound, hhome, hfresh, hframe, hhead, hfollows, hbehind⟩ :=
      ih (h.extended ps hp) (page_extended_fresh hne) rfl
    have hkept : (s.chained ps (n + 1) previous).page previous = some (o.linkedTo s.fresh) :=
      (hframe previous hne.symm (Nat.lt_succ_of_lt (h.lt previous o hp))).trans hprevious
    constructor
    · exact hsound
    · exact hhome
    · exact hfresh.trans (Nat.succ_add_eq_add_succ s.fresh n)
    · intro q hq hlt
      exact (hframe q hlt.ne (Nat.lt_succ_of_lt hlt)).trans (page_extended_of_ne hq hlt.ne)
    · intro o' ho'
      obtain rfl := Option.some.inj (hp.symm.trans ho')
      exact ⟨_, hkept, rfl, rfl, rfl, rfl⟩
    · exact ⟨link_of_page hkept, hfollows⟩
    · intro q hle hlt
      rcases hle.eq_or_lt with rfl | hlt'
      · obtain ⟨o', ho', hrows, -, hcapacity, hover⟩ := hhead _ (page_extended_fresh hne)
        exact ⟨o', ho', hrows, hcapacity, hover⟩
      · have hlt'' : q < s.fresh + 1 + n := (Nat.succ_add_eq_add_succ s.fresh n).symm ▸ hlt
        exact hbehind q hlt' hlt''

/-! ## Placing rows -/

/-- Row `r` is alone on page `p`, with the pages `qs` behind it. -/
def Heads (s : Layout) (r : RowID) (p : PageID) (qs : List PageID) : Prop :=
  (∃ o, s.page p = some o ∧ o.rows = {r}) ∧ Follows s.link p qs

/-- A sound layout in which every row of more than `ps` bytes heads a chain of as many pages as it
    takes. -/
structure Laid (s : Layout) (ps : ℕ) (sizes : RowID → ℕ) : Prop where
  sound : s.Sound
  chained : ∀ r p, s.home r = some p → ps < sizes r →
    ∃ qs, s.Heads r p qs ∧ qs.length = Table.extraPages (sizes r) ps

/-- A row of more than a page takes a second one. -/
theorem extraPages_pos (hps : 1 ≤ ps) (hsize : ps < size) : 0 < Table.extraPages size ps := by
  have h : 2 ≤ (size + ps - 1) / ps := (Nat.le_div_iff_mul_le hps).2 (by omega)
  exact Nat.sub_pos_of_lt h

namespace Heads

theorem congr (h : s.Heads r p qs) (hsame : ∀ x ∈ p :: qs, s'.page x = s.page x) : s'.Heads r p qs := by
  obtain ⟨⟨o, hp, hrows⟩, hfollows⟩ := h
  exact ⟨⟨o, (hsame p (List.mem_cons_self ..)).trans hp, hrows⟩,
    hfollows.congr fun x hx => link_congr (hsame x hx)⟩

theorem exists_page (h : s.Heads r p qs) (hs : s.Sound) (hq : q ∈ p :: qs) : ∃ o, s.page q = some o := by
  rcases List.mem_cons.1 hq with rfl | hq
  · obtain ⟨o, hp, -⟩ := h.1
    exact ⟨o, hp⟩
  · obtain ⟨a, -, hlink⟩ := h.2.exists_link hq
    obtain ⟨o, hq, -⟩ := hs.target a q hlink
    exact ⟨o, hq⟩

/-- A chain of several pages stays away from a plain page that is the last one. -/
theorem ne_tail (h : s.Heads r p qs) (hs : s.Sound) (hlen : 0 < qs.length) {tail : PageID}
    (ht : s.page tail = some o) (hplain : o.isOverflow = false)
    (hlast : ∀ q o', s.page q = some o' → q ≤ tail) (hq : q ∈ p :: qs) : q ≠ tail := by
  rintro rfl
  rcases List.mem_cons.1 hq with rfl | hq
  · cases qs with
    | nil => cases hlen
    | cons next qs =>
      obtain ⟨o', hnext, -⟩ := hs.target q next h.2.1
      exact absurd (hlast next o' hnext) (not_le.2 (hs.forward q next h.2.1))
  · obtain ⟨a, -, hlink⟩ := h.2.exists_link hq
    obtain ⟨o', ho', hover⟩ := hs.target a q hlink
    obtain rfl := Option.some.inj (ht.symm.trans ho')
    exact absurd (hplain.symm.trans hover) Bool.false_ne_true

end Heads

/-- A row has come to a page of its layout, and the chains there were are as they were. -/
theorem Laid.of_kept (h : s.Laid ps sizes) (hps : 1 ≤ ps) (hsound : s'.Sound)
    (hhome : s'.home = Function.update s.home r (some p))
    (hkept : ∀ r' p' qs, s.Heads r' p' qs → 0 < qs.length → ∀ x ∈ p' :: qs, s'.page x = s.page x)
    (hnew : ps < size → ∃ qs, s'.Heads r p qs ∧ qs.length = Table.extraPages size ps) :
    s'.Laid ps (Function.update sizes r size) := by
  refine ⟨hsound, fun r' p' hp' hbig => ?_⟩
  rw [hhome] at hp'
  by_cases hne : r' = r
  · subst hne
    rw [Function.update_self] at hp' hbig ⊢
    exact Option.some.inj hp' ▸ hnew hbig
  · rw [Function.update_of_ne hne] at hp' hbig ⊢
    obtain ⟨qs, hheads, hlen⟩ := h.chained r' p' hp' hbig
    have hpos : 0 < qs.length := hlen ▸ extraPages_pos hps hbig
    exact ⟨qs, hheads.congr (hkept r' p' qs hheads hpos), hlen⟩

/-- **A placement** keeps the rows laid, with the size of the new row. -/
theorem Laid.placed (h : s.Laid ps sizes) (hps : 1 ≤ ps) (hr : s.home r = none)
    (hplaced : Placed ps s r size s') : s'.Laid ps (Function.update sizes r size) := by
  have hopened : (s.opened (.blank ps)).Sound := h.sound.opened rfl rfl
  have hblank : (s.opened (.blank ps)).page s.fresh = some (.blank ps) := page_opened_self
  have hput : ((s.opened (.blank ps)).put s.fresh r size).Sound := hopened.put hr hblank rfl
  have hold : ∀ x, (∃ o, s.page x = some o) →
      ((s.opened (.blank ps)).put s.fresh r size).page x = s.page x := by
    rintro x ⟨o, hx⟩
    have hne := h.sound.ne_fresh hx
    rw [page_put_of_ne hne, page_opened_of_ne hne]
  cases hplaced with
  | tail hsize hp hlast hplain hroom =>
    refine h.of_kept hps (h.sound.put hr hp hplain) rfl (fun r' p' qs hheads hpos x hx => ?_)
      fun hbig => absurd hbig (not_lt.2 hsize)
    exact page_put_of_ne (hheads.ne_tail h.sound hpos hp hplain hlast hx)
  | fresh hsize =>
    exact h.of_kept hps hput rfl
      (fun r' p' qs hheads _ x hx => hold x (hheads.exists_page h.sound hx))
      fun hbig => absurd hbig (not_lt.2 hsize)
  | chain hsize =>
    have hhead : ((s.opened (.blank ps)).put s.fresh r size).page s.fresh =
        some ((Outline.blank ps).append r size) := page_put_self hblank
    have hchains := hput.chained ps hhead rfl (Table.extraPages size ps)
    refine h.of_kept hps hchains.sound hchains.home (fun r' p' qs hheads _ x hx => ?_) fun _ => ?_
    · obtain ⟨o, hx⟩ := hheads.exists_page h.sound hx
      have hlt := h.sound.lt x o hx
      rw [hchains.frame x hlt.ne (Nat.lt_succ_of_lt hlt), hold x ⟨o, hx⟩]
    · obtain ⟨o, ho, hrows, -⟩ := hchains.head _ hhead
      exact ⟨_, ⟨⟨o, ho, hrows⟩, hchains.follows⟩, List.length_range'⟩

/-- Chains of different rows have no page in common. -/
theorem Heads.disjoint {r' : RowID} {p' : PageID} {qs' : List PageID} (h : s.Sound)
    (hheads : s.Heads r p qs) (hheads' : s.Heads r' p' qs') (hne : r ≠ r') :
    List.Disjoint (p :: qs) (p' :: qs') := by
  intro b hb hb'
  obtain ⟨⟨o, hp, hrows⟩, hfollows⟩ := hheads
  obtain ⟨⟨o', hp', hrows'⟩, hfollows'⟩ := hheads'
  have hfirst : ∀ a, s.link a ≠ some p := fun a =>
    h.not_linked hp (hrows ▸ Finset.mem_singleton_self r)
  have hfirst' : ∀ a, s.link a ≠ some p' := fun a =>
    h.not_linked hp' (hrows' ▸ Finset.mem_singleton_self r')
  obtain rfl : p = p' :=
    Follows.head_unique h.forward h.injective hfirst hfirst' hfollows hfollows' hb hb'
  obtain rfl := Option.some.inj (hp.symm.trans hp')
  exact hne (Finset.singleton_inj.1 (hrows.symm.trans hrows'))

end Layout

end AntDb
