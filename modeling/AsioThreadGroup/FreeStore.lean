import AsioThreadGroup.PolyfillThread
import Mathlib.Data.List.Nodup

/-! The free store holding `thread_group::item`s, and `Chain`, the shape of the list that
`first_` heads: live items linked through `next_` down to null. -/
namespace Asio.Detail

variable {τ : Cpf}

/-- An address in the free store; `0` is the null pointer. -/
abbrev Addr := Nat

/-- `thread_group::item`: `thread_` and `next_`. -/
structure Item (τ : Cpf) where
  thread : PolyfillThread τ
  next : Addr

/-- The free store: cell `a` holds the item at address `a`, or `none` once it is deleted.
Cell `0` is never handed out, so `0` is null, and `new` appends a cell, so no address is
handed out twice. -/
structure Store (τ : Cpf) where
  cells : List (Option (Item τ))
  length_pos : 0 < cells.length

def Store.empty : Store τ := ⟨[none], Nat.one_pos⟩

/-- `*a`: the live item at `a`, or `none` when `a` is null or was never or no longer allocated. -/
def Store.get (s : Store τ) (a : Addr) : Option (Item τ) :=
  if a = 0 then none else s.cells[a]?.join

/-- `new item(...)`: the address handed out and the store holding the item there. -/
def Store.alloc (s : Store τ) (it : Item τ) : Addr × Store τ :=
  (s.cells.length, ⟨s.cells ++ [some it], by simp⟩)

/-- `delete a`. -/
def Store.free (s : Store τ) (a : Addr) : Store τ :=
  ⟨s.cells.set a none, by simpa using s.length_pos⟩

/-- Storing `it` at `a`, as a member function writing through `a` does. -/
def Store.write (s : Store τ) (a : Addr) (it : Item τ) : Store τ :=
  ⟨s.cells.set a (some it), by simpa using s.length_pos⟩

section Store

variable {s : Store τ} {a b : Addr} {it : Item τ}

@[simp] theorem Store.get_zero (s : Store τ) : s.get 0 = none := rfl

@[simp] theorem Store.get_empty (a : Addr) : (Store.empty : Store τ).get a = none := by
  rcases a with _ | _ | a <;> rfl

theorem Store.ne_zero_of_get (h : s.get a = some it) : a ≠ 0 := by
  rintro rfl
  simp at h

theorem Store.lt_length_of_ne_none (h : s.get a ≠ none) : a < s.cells.length := by
  by_contra hn
  simp [Store.get, List.getElem?_eq_none (Nat.le_of_not_gt hn)] at h

@[simp] theorem Store.alloc_fst (s : Store τ) (it : Item τ) : (s.alloc it).1 = s.cells.length := rfl

@[simp] theorem Store.length_alloc (s : Store τ) (it : Item τ) :
    (s.alloc it).2.cells.length = s.cells.length + 1 := by
  simp [Store.alloc]

@[simp] theorem Store.length_free (s : Store τ) (a : Addr) : (s.free a).cells.length = s.cells.length :=
  List.length_set ..

@[simp] theorem Store.length_write (s : Store τ) (a : Addr) (it : Item τ) :
    (s.write a it).cells.length = s.cells.length :=
  List.length_set ..

theorem Store.get_alloc_self : (s.alloc it).2.get s.cells.length = some it := by
  simp [Store.get, Store.alloc, Nat.pos_iff_ne_zero.mp s.length_pos]

theorem Store.get_alloc_of_lt (h : a < s.cells.length) : (s.alloc it).2.get a = s.get a := by
  simp [Store.get, Store.alloc, List.getElem?_append_left h]

theorem Store.get_free_ne (h : b ≠ a) : (s.free b).get a = s.get a := by
  simp [Store.get, Store.free, List.getElem?_set_ne h]

theorem Store.get_free_self : (s.free a).get a = none := by
  simp only [Store.get, Store.free, List.getElem?_set]
  split_ifs <;> rfl

theorem Store.get_write_ne (h : b ≠ a) : (s.write b it).get a = s.get a := by
  simp [Store.get, Store.write, List.getElem?_set_ne h]

theorem Store.get_write_self (h : s.get a ≠ none) : (s.write a it).get a = some it := by
  have ha : a ≠ 0 := by rintro rfl; simp at h
  simp [Store.get, Store.write, ha, List.getElem?_set, Store.lt_length_of_ne_none h]

/-- After `new`, the live items are the new one and those live before. -/
theorem Store.get_alloc_ne_none (h : (s.alloc it).2.get a ≠ none) :
    a = s.cells.length ∨ s.get a ≠ none := by
  rcases Nat.lt_trichotomy a s.cells.length with hl | rfl | hl
  · exact .inr (by rwa [← Store.get_alloc_of_lt hl])
  · exact .inl rfl
  · refine absurd ?_ h
    have : (s.cells ++ [some it]).length ≤ a := by simpa using hl
    simp [Store.get, Store.alloc, List.getElem?_eq_none this]

/-- Allocating only appends: every cell present before keeps its contents. -/
theorem Store.prefix_alloc (s : Store τ) (it : Item τ) : s.cells <+: (s.alloc it).2.cells :=
  List.prefix_append _ _

end Store

/-- `Chain s p as ts`: following `next_` from `p` visits the live items at the addresses
`as`, which hold the threads `ts`, and reaches null. -/
inductive Chain (s : Store τ) : Addr → List Addr → List (PolyfillThread τ) → Prop
  | null : Chain s 0 [] []
  | cons {a : Addr} {it : Item τ} {as : List Addr} {ts : List (PolyfillThread τ)} :
      s.get a = some it → Chain s it.next as ts → Chain s a (a :: as) (it.thread :: ts)

namespace Chain

variable {s s' : Store τ} {p : Addr} {as as' : List Addr} {ts ts' : List (PolyfillThread τ)}

theorem length_eq (h : Chain s p as ts) : as.length = ts.length := by
  induction h with
  | null => rfl
  | cons _ _ ih => simp [ih]

theorem nil_iff : Chain s p [] ts ↔ p = 0 ∧ ts = [] := by
  constructor
  · rintro ⟨⟩; exact ⟨rfl, rfl⟩
  · rintro ⟨rfl, rfl⟩; exact .null

theorem cons_iff {a : Addr} {t : PolyfillThread τ} :
    Chain s p (a :: as) (t :: ts) ↔ p = a ∧ ∃ it, s.get a = some it ∧ it.thread = t ∧ Chain s it.next as ts := by
  constructor
  · rintro (_ | ⟨hg, hc⟩); exact ⟨rfl, _, hg, rfl, hc⟩
  · rintro ⟨rfl, it, hg, rfl, hc⟩; exact .cons hg hc

theorem cons_left {a : Addr} (h : Chain s p (a :: as) ts) :
    p = a ∧ ∃ it ts', s.get a = some it ∧ ts = it.thread :: ts' ∧ Chain s it.next as ts' := by
  cases h with
  | cons hg hc => exact ⟨rfl, _, _, hg, rfl, hc⟩

theorem head_eq_zero_iff (h : Chain s p as ts) : p = 0 ↔ as = [] := by
  cases h with
  | null => simp
  | cons hg _ => simp [Store.ne_zero_of_get hg]

/-- The list `first_` heads is determined by the store. -/
theorem unique (h : Chain s p as ts) (h' : Chain s p as' ts') : as = as' ∧ ts = ts' := by
  induction h generalizing as' ts' with
  | null => cases h' with
    | null => exact ⟨rfl, rfl⟩
    | cons hg _ => simp at hg
  | cons hg _ ih => cases h' with
    | null => simp at hg
    | cons hg' hc' =>
      obtain rfl := Option.some.inj (hg.symm.trans hg')
      obtain ⟨rfl, rfl⟩ := ih hc'
      exact ⟨rfl, rfl⟩

theorem get_of_mem (h : Chain s p as ts) {a : Addr} (ha : a ∈ as) : s.get a ≠ none := by
  induction h with
  | null => simp at ha
  | cons hg _ ih =>
    rcases List.mem_cons.mp ha with rfl | ha
    · simp [hg]
    · exact ih ha

/-- A chain reads only its own cells: it survives any change to the others. -/
theorem frame (h : Chain s p as ts) (hs : ∀ a ∈ as, s'.get a = s.get a) : Chain s' p as ts := by
  induction h with
  | null => exact .null
  | cons hg _ ih =>
    exact .cons ((hs _ (List.mem_cons_self _ _)).trans hg)
      (ih fun a ha => hs a (List.mem_cons_of_mem _ ha))

theorem alloc (h : Chain s p as ts) (it : Item τ) : Chain (s.alloc it).2 p as ts :=
  h.frame fun _ ha => Store.get_alloc_of_lt (Store.lt_length_of_ne_none (h.get_of_mem ha))

theorem free (h : Chain s p as ts) {b : Addr} (hb : b ∉ as) : Chain (s.free b) p as ts :=
  h.frame fun _ ha => Store.get_free_ne fun e => hb (e ▸ ha)

theorem write (h : Chain s p as ts) {b : Addr} (hb : b ∉ as) (it : Item τ) :
    Chain (s.write b it) p as ts :=
  h.frame fun _ ha => Store.get_write_ne fun e => hb (e ▸ ha)

/-- Distinct live addresses are at most as many as the cells of the store. -/
theorem length_le (h : Chain s p as ts) (hn : as.Nodup) : as.length ≤ s.cells.length := by
  have hsub : as ⊆ List.range s.cells.length := fun _ ha =>
    List.mem_range.mpr (Store.lt_length_of_ne_none (h.get_of_mem ha))
  simpa using (List.subperm_of_subset hn hsub).length_le

end Chain

end Asio.Detail
