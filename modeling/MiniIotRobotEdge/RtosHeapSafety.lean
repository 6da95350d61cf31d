import MiniIotRobotEdge.RtosHeapMoves

/-!
# Safety of the heap

`heap_region_init` computes the usable size of a buffer without checking that
the aligned start is not behind the aligned end.  As long as no buffer without
an aligned address is added, every reachable heap is well formed, and every
call returns.
-/

namespace MiniIotRobotEdge

namespace Rtos

theorem heapInvariant_of_reachable {initial system : HeapSystem}
    (started : ∃ chain, HeapInvariant initial chain)
    (run : HeapSystem.Reachable AddsAligned initial system) :
    ∃ chain, HeapInvariant system chain :=
  heapInvariant_of_contained AddsAligned.contained started run

/-- Every heap reached by a correct program is well formed, and every call of
such a program returns. -/
theorem heap_wellFormed (heap : Heap) {start size type : Nat} (positive : 0 < start)
    (sizeLt : size < uint32Size) (addressLt : start + size < uintptrSize)
    (usable : (start + heapAlignment - 1) / heapAlignment * heapAlignment +
      heapMinBlockSize * 2 ≤ (start + size) / heapAlignment * heapAlignment)
    (typed : heapType2 ≤ type ∧ type ≤ heapType5) {system : HeapSystem}
    (run : HeapSystem.Reachable AddsAligned (.init heap start size type) system) :
    HeapWellFormed system ∧
      ∀ op, AddsAligned system op → ∃ fuel after, system.exec fuel op = some after := by
  have aligned : AlignedInside start size := Nat.le_trans (Nat.le_add_right _ _) usable
  obtain ⟨chain, invariant⟩ := heapInvariant_of_reachable
    (heapInvariant_init heap positive sizeLt addressLt aligned typed) run
  exact ⟨invariant.wellFormed, fun op _ => ⟨uint32Size, invariant.exec_total op⟩⟩

theorem heap_wellFormed_two_blocks :
    ∃ system, HeapSystem.Reachable AddsAligned (.init staticHeap 4096 256 heapType4) system ∧
      system.live = [4176, 4128] ∧ HeapWellFormed system := by
  obtain ⟨system, run, isLive⟩ := exists_reachable_small
    (.init staticHeap 4096 256 heapType4) 4 [.malloc 16, .malloc 40]
    (fun system => system.live = [4176, 4128]) (by decide +kernel)
  exact ⟨system, run, isLive, (heap_wellFormed staticHeap (by decide) (by decide) (by decide)
    (by decide) (by decide) run).1⟩

/-- A buffer of two bytes between aligned addresses becomes a region that ends
before it starts. -/
theorem heap_wellFormed_unaligned :
    ¬∀ system, HeapSystem.Reachable HeapCall (.init staticHeap 4096 64 heapType4) system →
      HeapWellFormed system := by
  intro holds
  have regions : ((HeapSystem.init staticHeap 4096 64 heapType4).exec 0 (.addRegion 8193 2)).map
      (·.heap.regions) = some [⟨4096, 4160, 4096⟩, ⟨8200, 8192, 8200⟩] := by
    decide +kernel
  obtain ⟨system, executed, isRegions⟩ := Option.map_eq_some_iff.mp regions
  have call : HeapCall (.init staticHeap 4096 64 heapType4) (.addRegion 8193 2) := by
    have initial : (HeapSystem.init staticHeap 4096 64 heapType4).heap.regions =
        [⟨4096, 4160, 4096⟩] := by decide +kernel
    refine ⟨by decide, by decide, by decide, fun region regionMem => .inr ?_⟩
    rw [initial] at regionMem
    rw [List.mem_singleton.mp regionMem]
    decide
  obtain ⟨blocks, regionChain⟩ := (holds system (.single ⟨0, _, call, executed⟩)).chains
    ⟨8200, 8192, 8200⟩ (by simp [isRegions])
  have bounds := regionChain.tiles.bounds.1
  simp at bounds

end Rtos

end MiniIotRobotEdge
