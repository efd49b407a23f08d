import Mathlib.Data.List.AList
import Mathlib.Data.List.Perm.Basic

/-!
# Maps with an unspecified iteration order

Association lists with distinct keys, mapped entry by entry, and the orders in
which a hash map may present its entries.
-/

namespace Discovery.Lib

variable {κ ν μ : Type*}

abbrev KeyedMap (κ ν : Type*) := AList fun _ : κ ↦ ν

abbrev Entry (κ ν : Type*) := Sigma fun _ : κ ↦ ν

namespace KeyedMap

/-- Rewrites every value, with its key at hand. -/
def mapEntries (f : κ → ν → μ) (m : KeyedMap κ ν) : KeyedMap κ μ :=
  ⟨m.entries.map (Sigma.map id f), m.nodupKeys.map₂ f⟩

variable [DecidableEq κ]

@[simp] theorem lookup_mapEntries (f : κ → ν → μ) (m : KeyedMap κ ν) (k : κ) :
    (mapEntries f m).lookup k = (m.lookup k).map (f k) :=
  List.dlookup_map₂ k

/-- Rewrites the value under one key, in place. -/
def adjust (k : κ) (f : ν → ν) (m : KeyedMap κ ν) : KeyedMap κ ν :=
  mapEntries (fun a v ↦ if a = k then f v else v) m

@[simp] theorem lookup_adjust_self (k : κ) (f : ν → ν) (m : KeyedMap κ ν) :
    (adjust k f m).lookup k = (m.lookup k).map f := by
  simp [adjust]

theorem lookup_adjust_ne {k a : κ} (h : a ≠ k) (f : ν → ν) (m : KeyedMap κ ν) :
    (adjust k f m).lookup a = m.lookup a := by
  simp [adjust, h]

theorem mem_entries_iff (m : KeyedMap κ ν) (e : Entry κ ν) :
    e ∈ m.entries ↔ m.lookup e.1 = some e.2 :=
  AList.mem_lookup_iff.symm

def filterEntries (p : κ → ν → Bool) (m : KeyedMap κ ν) : KeyedMap κ ν :=
  ⟨m.entries.filter fun e ↦ p e.1 e.2, m.nodupKeys.sublist List.filter_sublist⟩

theorem lookup_filterEntries (p : κ → ν → Bool) (m : KeyedMap κ ν) (k : κ) :
    (filterEntries p m).lookup k = (m.lookup k).filter (p k) := by
  apply Option.ext
  intro v
  have hmem (m : KeyedMap κ ν) : m.lookup k = some v ↔ (⟨k, v⟩ : Entry κ ν) ∈ m.entries :=
    (mem_entries_iff m ⟨k, v⟩).symm
  rw [hmem, filterEntries, List.mem_filter, Option.filter_eq_some_iff, hmem]

/-! ## Properties of all entries -/

/-- Every value has the property `P` of its key. -/
def All (P : κ → ν → Prop) (m : KeyedMap κ ν) : Prop := ∀ k v, m.lookup k = some v → P k v

namespace All

variable {P : κ → ν → Prop} {m : KeyedMap κ ν} {k : κ}

theorem empty : All P (∅ : KeyedMap κ ν) := by
  intro a w hw
  cases hw

theorem insert {v : ν} (h : All P m) (hv : P k v) : All P (m.insert k v) := by
  intro a w hw
  by_cases ha : a = k
  · subst ha
    rw [AList.lookup_insert, Option.some.injEq] at hw
    exact hw ▸ hv
  · rw [AList.lookup_insert_ne ha] at hw
    exact h a w hw

theorem erase (h : All P m) (k : κ) : All P (m.erase k) := by
  intro a w hw
  by_cases ha : a = k
  · subst ha
    rw [AList.lookup_erase] at hw
    cases hw
  · rw [AList.lookup_erase_ne ha] at hw
    exact h a w hw

theorem mapEntries {f : κ → ν → ν} (h : All P m) (hf : ∀ k v, P k v → P k (f k v)) :
    All P (mapEntries f m) := by
  intro a w hw
  rw [lookup_mapEntries, Option.map_eq_some_iff] at hw
  obtain ⟨v, hv, rfl⟩ := hw
  exact hf a v (h a v hv)

theorem adjust {f : ν → ν} (h : All P m) (hf : ∀ v, P k v → P k (f v)) :
    All P (adjust k f m) := by
  apply h.mapEntries
  intro a v hv
  split_ifs with ha
  · exact ha ▸ hf v (ha ▸ hv)
  · exact hv

theorem filterEntries (h : All P m) (p : κ → ν → Bool) : All P (filterEntries p m) := by
  intro a w hw
  rw [lookup_filterEntries, Option.filter_eq_some_iff] at hw
  exact h a w hw.1

end All

end KeyedMap

/-! ## Iteration orders -/

/-- One choice of iteration order: it presents the same elements, each as often
as they occur. -/
structure Shuffle (α : Type*) where
  order : List α → List α
  perm : ∀ l, (order l).Perm l

namespace Shuffle

variable {α : Type*}

def inOrder : Shuffle α := ⟨id, fun _ ↦ .refl _⟩

def reversed : Shuffle α := ⟨List.reverse, List.reverse_perm⟩

@[simp] theorem mem_order (s : Shuffle α) (l : List α) (a : α) : a ∈ s.order l ↔ a ∈ l :=
  (s.perm l).mem_iff

theorem nodup_keys (s : Shuffle (Entry κ ν)) (m : KeyedMap κ ν) :
    ((s.order m.entries).map Sigma.fst).Nodup :=
  ((s.perm _).map Sigma.fst).nodup_iff.mpr m.nodupKeys

end Shuffle

/-! ## Classes -/

/-- A list is the disjoint union of its classes when `cs` names each class once. -/
theorem perm_flatMap_filter {α β : Type*} [DecidableEq β] (f : α → β) (cs : List β)
    (hcs : cs.Nodup) {l : List α} (hl : ∀ a ∈ l, f a ∈ cs) :
    l.Perm (cs.flatMap fun c ↦ l.filter fun a ↦ f a = c) := by
  induction cs generalizing l with
  | nil =>
      have hnil : l = [] := List.eq_nil_iff_forall_not_mem.mpr fun a ha ↦ by simpa using hl a ha
      rw [hnil, List.flatMap_nil]
  | cons c cs ih =>
      obtain ⟨hc, hcs⟩ := List.nodup_cons.mp hcs
      let rest := l.filter fun a ↦ !decide (f a = c)
      have hrest : rest.Perm (cs.flatMap fun d ↦ rest.filter fun a ↦ f a = d) := by
        apply ih hcs
        intro a ha
        obtain ⟨ha, hne⟩ := List.mem_filter.mp ha
        exact (List.mem_cons.mp (hl a ha)).resolve_left (by simpa using hne)
      have hclasses : (cs.flatMap fun d ↦ rest.filter fun a ↦ f a = d) =
          cs.flatMap fun d ↦ l.filter fun a ↦ f a = d := by
        apply List.flatMap_congr
        intro d hd
        rw [List.filter_filter]
        apply List.filter_congr
        intro a _
        by_cases hfa : f a = d
        · have hne : d ≠ c := fun h ↦ hc (h ▸ hd)
          simp [hfa, hne]
        · simp [hfa]
      rw [List.flatMap_cons, ← hclasses]
      exact (List.filter_append_perm _ l).symm.trans (hrest.append_left _)

end Discovery.Lib
