import DseNetwork.Network.Library

/-
What the checksum of a struct shows.

Of two strings that differ only in two neighbouring bytes the checksums differ.  So a
change of one signal of at most two bytes is found, as far as the signal lies in the bytes
that the checksum is taken of.
-/

namespace DseNetwork

/-- The strings of a length differ, in no other bytes than `k` and the one after it. -/
structure DiffersAt (k : Nat) (key key' : Memory) (len : Nat) : Prop where
  differs : key.bytes len ≠ key'.bytes len
  elsewhere : ∀ a, a < len → a ≠ k → a ≠ k + 1 → key a = key' a

theorem DiffersAt.lt {k len : Nat} {key key' : Memory} (h : DiffersAt k key key' len) :
    k < len := by
  by_contra hge
  exact h.differs (Memory.bytes_congr (fun a ha => h.elsewhere a ha (by omega) (by omega)))

theorem DiffersAt.checksum_ne {k len : Nat} {key key' : Memory}
    (h : DiffersAt k key key' len) :
    simbusGenerateUidHash key len ≠ simbusGenerateUidHash key' len := by
  have hlt := h.lt
  obtain ⟨w, after, hshort, hlen, hrest⟩ :
      ∃ w after, w ≤ 2 ∧ len = k + w + after ∧ (after = 0 ∨ w = 2) := by
    by_cases hlast : len = k + 1
    · exact ⟨1, 0, by decide, hlast, .inl rfl⟩
    · exact ⟨2, len - (k + 2), by decide, by omega, .inr rfl⟩
  have hsplit : ∀ m : Memory, m.bytes len = m.bytes k ++ Memory.bytes (fun x => m (k + x)) w ++
      Memory.bytes (fun x => m (k + w + x)) after := fun m => by
    rw [hlen, Memory.bytes_add, Memory.bytes_add]
  have hbefore : key.bytes k = key'.bytes k :=
    Memory.bytes_congr (fun a ha => h.elsewhere a (by omega) (by omega) (by omega))
  have hafter : Memory.bytes (fun x => key (k + w + x)) after =
      Memory.bytes (fun x => key' (k + w + x)) after :=
    Memory.bytes_congr (fun a ha => h.elsewhere _ (by omega) (by omega) (by omega))
  intro heq
  refine h.differs ?_
  rw [simbusGenerateUidHash, simbusGenerateUidHash, hsplit, hsplit, hbefore, hafter,
    Fnv.hash_window_inj (by rw [Memory.length_bytes, Memory.length_bytes])
      (by rwa [Memory.length_bytes])] at heq
  rw [hsplit, hsplit, hbefore, hafter, heq]

/-! ## One signal -/

/-- The buffers differ in the value of the signal and in no byte outside it. -/
structure ChangesOnly (ns : NetworkSignal) (buffer buffer' : Memory) : Prop where
  changed : ns.raw buffer ≠ ns.raw buffer'
  kept : ∀ a, a < ns.address ∨ ns.address + ns.memberType.size ≤ a → buffer a = buffer' a

theorem ChangesOnly.differsAt {ns : NetworkSignal} {buffer buffer' : Memory}
    (h : ChangesOnly ns buffer buffer') (hsize : ns.memberType.size ≤ 2) {len : Nat}
    (hinside : ns.address + ns.memberType.size ≤ len) :
    DiffersAt ns.address buffer buffer' len where
  differs heq := by
    refine h.changed (Memory.load_congr (fun a _ ha => ?_))
    exact Memory.bytes_inj.mp heq a (by omega)
  elsewhere a _ hne hne' := h.kept a (by omega)

/-- The checksum tells strings apart that differ in one byte or two neighbouring ones, so
that packing finds every change of one signal of at most two bytes in the struct. -/
theorem small_change_detected :
    (∀ k key key' len, DiffersAt k key key' len →
      simbusGenerateUidHash key len ≠ simbusGenerateUidHash key' len) ∧
    ∀ (nm : NetworkMessage) (ns : NetworkSignal) (st : MessageState) (old : Memory),
      ns.memberType.size ≤ 2 → ns.address + ns.memberType.size ≤ nm.bufferLen →
      ChangesOnly ns st.buffer old →
      simbusGenerateUidHash st.buffer nm.bufferLen ≠ simbusGenerateUidHash old nm.bufferLen ∧
        (nm.packFunc.isSome → nm.cycleTimeMs = 0 →
          st.bufferChecksum = simbusGenerateUidHash old nm.bufferLen →
          (Network.packMessage nm st).needsTx = true) := by
  refine ⟨fun k key key' len h => h.checksum_ne, fun nm ns st old hsize hinside h => ?_⟩
  have hne := (h.differsAt hsize hinside).checksum_ne
  refine ⟨hne, fun hpack hevent hold => ?_⟩
  rw [(Network.packMessage_event hpack hevent st).2, hold]
  exact hne

theorem small_change_detected_byte :
    (Network.packMessage (plainMessage "M" 0x1a0#32 4 [byteSignal "s" 1 (fun _ => true)])
      { MessageState.initial with
        buffer := Memory.ofBytes [0#8, 7#8]
        bufferChecksum := simbusGenerateUidHash Memory.zero 4 }).needsTx = true := by
  refine (small_change_detected.2
    (plainMessage "M" 0x1a0#32 4 [byteSignal "s" 1 (fun _ => true)])
    (byteSignal "s" 1 (fun _ => true))
    { MessageState.initial with
      buffer := Memory.ofBytes [0#8, 7#8]
      bufferChecksum := simbusGenerateUidHash Memory.zero 4 } Memory.zero
    (by decide) (by decide) ⟨by decide +kernel, ?_⟩).2 rfl rfl rfl
  intro a ha
  rcases ha with hlt | hge
  · obtain rfl : a = 0 := Nat.lt_one_iff.mp hlt
    rfl
  · have hlength : [0#8, 7#8].length ≤ a := hge
    show [0#8, 7#8].getD a 0#8 = 0#8
    rw [List.getD_eq_getElem?_getD, List.getElem?_eq_none hlength, Option.getD_none]

end DseNetwork
