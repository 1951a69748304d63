import Mathlib.Data.List.Basic

/-
Byte memory addressed from a base pointer.

A `Memory` is total: an access past the object the base pointer stands for reads
and writes bytes of the same function.  Words are little endian, the byte order of
the targets that overlay integer arrays on byte buffers.
-/

namespace DseNetwork

abbrev Byte := BitVec 8

abbrev Memory := Nat → Byte

namespace Memory

def zero : Memory := fun _ => 0#8

def ofBytes (l : List Byte) : Memory := fun a => l.getD a 0#8

def bytes (m : Memory) (len : Nat) : List Byte := (List.range len).map m

/-- The word of `n` bytes at address `a`. -/
def load (m : Memory) : (n a : Nat) → BitVec (8 * n)
  | 0, _ => 0#0
  | n + 1, a => load m n (a + 1) ++ m a

def store (m : Memory) (n a : Nat) (v : BitVec (8 * n)) : Memory :=
  fun x => if a ≤ x ∧ x < a + n then v.extractLsb' (8 * (x - a)) 8 else m x

theorem bytes_congr {m m' : Memory} {len : Nat} (h : ∀ a, a < len → m a = m' a) :
    m.bytes len = m'.bytes len := by
  refine List.map_congr_left (fun a ha => h a ?_)
  simpa using ha

theorem bytes_add (m : Memory) (a b : Nat) :
    m.bytes (a + b) = m.bytes a ++ Memory.bytes (fun x => m (a + x)) b := by
  rw [bytes, List.range_add, List.map_append, List.map_map]
  rfl

theorem bytes_inj {m m' : Memory} {len : Nat} :
    m.bytes len = m'.bytes len ↔ ∀ a, a < len → m a = m' a := by
  rw [bytes, bytes, List.map_inj_left]
  simp only [List.mem_range]

theorem length_bytes (m : Memory) (len : Nat) : (m.bytes len).length = len := by
  rw [bytes, List.length_map, List.length_range]

theorem ofBytes_bytes (m : Memory) {len a : Nat} (h : a < len) :
    ofBytes (m.bytes len) a = m a := by
  rw [ofBytes, bytes, List.getD_eq_getElem?_getD, List.getElem?_map, List.getElem?_range h]
  rfl

/-! ## Words -/

theorem getLsbD_load (m : Memory) : ∀ (n a k : Nat),
    (m.load n a).getLsbD k = (decide (k < 8 * n) && (m (a + k / 8)).getLsbD (k % 8)) := by
  intro n
  induction n with
  | zero => intro a k; simp [load]
  | succ n ih =>
    intro a k
    show (m.load n (a + 1) ++ m a).getLsbD k = _
    rw [BitVec.getLsbD_append]
    by_cases hk : k < 8
    · have hdiv : k / 8 = 0 := by omega
      have hmod : k % 8 = k := by omega
      have hlt : k < 8 * (n + 1) := by omega
      simp [hk, hdiv, hmod, hlt]
    · have haddr : a + 1 + (k - 8) / 8 = a + k / 8 := by omega
      have hmod : (k - 8) % 8 = k % 8 := by omega
      have hlt : (k - 8 < 8 * n) ↔ (k < 8 * (n + 1)) := by omega
      simp [hk, ih, haddr, hmod, hlt]

theorem load_congr {m m' : Memory} {n a : Nat} (h : ∀ x, a ≤ x → x < a + n → m x = m' x) :
    m.load n a = m'.load n a := by
  refine BitVec.eq_of_getLsbD_eq (fun k hk => ?_)
  rw [getLsbD_load, getLsbD_load, h (a + k / 8) (by omega) (by omega)]

theorem store_inside {m : Memory} {n a x : Nat} (v : BitVec (8 * n))
    (hlo : a ≤ x) (hhi : x < a + n) :
    m.store n a v x = v.extractLsb' (8 * (x - a)) 8 := by
  simp [store, hlo, hhi]

theorem store_outside {m : Memory} {n a x : Nat} (v : BitVec (8 * n))
    (h : x < a ∨ a + n ≤ x) : m.store n a v x = m x := by
  have hnot : ¬ (a ≤ x ∧ x < a + n) := by omega
  simp [store, hnot]

theorem load_store (m : Memory) (n a : Nat) (v : BitVec (8 * n)) :
    (m.store n a v).load n a = v := by
  refine BitVec.eq_of_getLsbD_eq (fun k hk => ?_)
  have hoff : 8 * (a + k / 8 - a) + k % 8 = k := by omega
  rw [getLsbD_load, store_inside v (by omega) (by omega), BitVec.getLsbD_extractLsb', hoff]
  simp [hk, Nat.mod_lt]

theorem store_load (m : Memory) (n a : Nat) : m.store n a (m.load n a) = m := by
  funext x
  by_cases h : a ≤ x ∧ x < a + n
  · rw [store_inside _ h.1 h.2]
    refine BitVec.eq_of_getLsbD_eq (fun k hk => ?_)
    have hidx : 8 * (x - a) + k < 8 * n := by omega
    have haddr : a + (8 * (x - a) + k) / 8 = x := by omega
    have hmod : (8 * (x - a) + k) % 8 = k := by omega
    rw [BitVec.getLsbD_extractLsb', getLsbD_load, haddr, hmod]
    simp [hk, hidx]
  · exact store_outside _ (by omega)

/-- Equal words have equal bytes. -/
theorem eq_of_load_eq {m m' : Memory} {n a x : Nat} (h : m.load n a = m'.load n a)
    (hlo : a ≤ x) (hhi : x < a + n) : m x = m' x := by
  rw [← store_load m n a, h, store_inside _ hlo hhi, ← store_inside (m := m') _ hlo hhi,
    store_load]

/-! ## Patches

A patch overwrites a fixed set of addresses with fixed bytes.  Stores of given
words are patches, patches compose, and applying one twice is applying it once. -/

def Patch (g : Memory → Memory) : Prop :=
  ∃ p : Nat → Option Byte, ∀ m a, g m a = (p a).getD (m a)

theorem Patch.id : Patch (fun m => m) := ⟨fun _ => none, fun _ _ => rfl⟩

theorem Patch.store (n a : Nat) (v : BitVec (8 * n)) : Patch (fun m => m.store n a v) := by
  refine ⟨fun x => if a ≤ x ∧ x < a + n then some (v.extractLsb' (8 * (x - a)) 8) else none,
    fun m x => ?_⟩
  by_cases h : a ≤ x ∧ x < a + n <;> simp [Memory.store, h]

theorem Patch.comp {g h : Memory → Memory} (hg : Patch g) (hh : Patch h) :
    Patch (fun m => h (g m)) := by
  obtain ⟨p, hp⟩ := hg
  obtain ⟨q, hq⟩ := hh
  refine ⟨fun a => (q a).or (p a), fun m a => ?_⟩
  show h (g m) a = _
  rw [hq, hp]
  cases hqa : q a <;> simp [hqa]

theorem Patch.foldl {κ : Type} {g : κ → Memory → Memory} (l : List κ)
    (hg : ∀ k ∈ l, Patch (g k)) : Patch (fun m => l.foldl (fun m k => g k m) m) := by
  induction l with
  | nil => exact Patch.id
  | cons k rest ih =>
    have hrest := ih (fun k' hk' => hg k' (List.mem_cons_of_mem k hk'))
    exact (hg k List.mem_cons_self).comp hrest

theorem Patch.idem {g : Memory → Memory} (hg : Patch g) (m : Memory) : g (g m) = g m := by
  obtain ⟨p, hp⟩ := hg
  funext a
  rw [hp, hp]
  cases p a <;> rfl

end Memory
end DseNetwork
