import DseNetwork.Network.RoundTrip
import Mathlib.Data.List.Pairwise

/-
One message as a C struct.

The members of a struct are aligned and do not meet.  A marshalled member then holds its
own value whatever is marshalled after it, and a member that is not on the marshal list
is left as it was.
-/

namespace DseNetwork

structure NetworkMessage.IsStruct (nm : NetworkMessage) : Prop where
  aligned : ∀ ns ∈ nm.signals, ns.Aligned
  apart : nm.signals.Pairwise NetworkSignal.Apart

namespace Network

variable {n : Network} {i : n.Ref}

theorem IsStruct.items_signal_mem {mi : n.Item} (hmi : mi ∈ n.items i) :
    mi.signal ∈ (n.msg i).signals :=
  (n.items_sublist i).subset (List.mem_map_of_mem hmi)

theorem IsStruct.items_aligned (h : (n.msg i).IsStruct) : ∀ mi ∈ n.items i, mi.signal.Aligned :=
  fun _ hmi => h.aligned _ (items_signal_mem hmi)

theorem IsStruct.items_apart (h : (n.msg i).IsStruct) :
    (n.items i).Pairwise (fun mi mi' => mi.signal.Apart mi'.signal) :=
  List.pairwise_map.mp (h.apart.sublist (n.items_sublist i))

/-- A marshalled member holds what its own value writes. -/
theorem IsStruct.raw_marshalled (h : (n.msg i).IsStruct) {mi : n.Item} (hmi : mi ∈ n.items i)
    (hknown : mi.signal.memberType ≠ .unknown) (sv : Nat → Double) (b : Memory) :
    mi.signal.raw (n.marshalBuffer sv i b) =
      mi.signal.raw (mi.signal.writeRaw (n.signalValue sv mi) b) :=
  raw_writeItems (items_aligned h) (items_apart h) hmi hknown b

/-- A member that is not on the marshal list is left as it was. -/
theorem IsStruct.raw_unlisted (h : (n.msg i).IsStruct) {ns : NetworkSignal}
    (hns : ns ∈ (n.msg i).signals) (hnone : ∀ mi ∈ n.items i, mi.signal ≠ ns)
    (sv : Nat → Double) (b : Memory) : ns.raw (n.marshalBuffer sv i b) = ns.raw b := by
  have : Std.Symm NetworkSignal.Apart := ⟨fun _ _ => NetworkSignal.Apart.symm⟩
  refine raw_writeItems_of_apart (h.aligned ns hns) (items_aligned h) (fun mi hmi => ?_) b
  exact h.apart.forall hns (items_signal_mem hmi) (Ne.symm (hnone mi hmi))

end Network
end DseNetwork
