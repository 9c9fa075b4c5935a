import Mathlib.Data.List.Induction
import Mathlib.Data.List.Nodup
import ResourceServer.Proofs.Lists
import ResourceServer.Proofs.Store.Steps

/-!
# Merged requests

Of the requests for one path the last one counts.  Merging keeps these and no others, so it
keeps every path once.
-/

namespace ResourceServer

variable {requests : List RelationRequest}

/-- The requests with one more, which takes the place of an earlier one of its path. -/
def RelationRequest.supersede (kept : List RelationRequest) (request : RelationRequest) :
    List RelationRequest :=
  if kept.any (·.path == request.path) then
    kept.map fun other => if other.path == request.path then request else other
  else kept ++ [request]

theorem mergeRequests_perm (requests : List RelationRequest) :
    (mergeRequests requests).Perm (requests.foldl RelationRequest.supersede []) :=
  List.mergeSort_perm _ _

namespace RelationRequest

variable {kept : List RelationRequest} {request : RelationRequest}

theorem map_path_supersede :
    (supersede kept request).map path =
      if request.path ∈ kept.map path then kept.map path else kept.map path ++ [request.path] := by
  have known : kept.any (·.path == request.path) = true ↔ request.path ∈ kept.map path := by
    simp
  unfold supersede
  split
  · rename_i present
    rw [if_pos (known.mp present), List.map_map]
    refine List.map_congr_left fun other _ => ?_
    rw [Function.comp_apply]
    split
    · rename_i same
      exact (beq_iff_eq.mp same).symm
    · rfl
  · rename_i absent
    rw [if_neg (mt known.mpr absent), List.map_append, List.map_singleton]

theorem nodup_foldl_supersede (requests : List RelationRequest) (unique : (kept.map path).Nodup) :
    ((requests.foldl supersede kept).map path).Nodup := by
  induction requests generalizing kept with
  | nil => exact unique
  | cons request rest induction =>
      refine induction ?_
      rw [map_path_supersede]
      split
      · exact unique
      · rename_i absent
        exact List.nodup_append.mpr ⟨unique, List.nodup_singleton _, by simpa using absent⟩

theorem mem_supersede {found : RelationRequest} :
    found ∈ supersede kept request ↔
      found = request ∨ (found.path ≠ request.path ∧ found ∈ kept) := by
  unfold supersede
  split
  · rename_i present
    rw [List.mem_map]
    constructor
    · rintro ⟨other, isKept, rfl⟩
      split
      · exact .inl rfl
      · rename_i different
        exact .inr ⟨by simpa using different, isKept⟩
    · rintro (rfl | ⟨different, isKept⟩)
      · obtain ⟨other, isKept, same⟩ := List.any_eq_true.mp present
        exact ⟨other, isKept, if_pos same⟩
      · exact ⟨found, isKept, if_neg (by simpa using different)⟩
  · rename_i absent
    rw [List.mem_append, List.mem_singleton, or_comm]
    refine or_congr_right ⟨fun isKept => ⟨fun same => ?_, isKept⟩, And.right⟩
    exact absent (List.any_eq_true.mpr ⟨found, isKept, beq_iff_eq.mpr same⟩)

/-- The last request of each path is left. -/
theorem mem_foldl_supersede (requests : List RelationRequest) {found : RelationRequest} :
    found ∈ requests.foldl supersede [] ↔
      (requests.filter (·.path == found.path)).getLast? = some found := by
  induction requests using List.reverseRecOn with
  | nil => simp
  | append_singleton earlier last induction =>
      rw [List.foldl_append, List.foldl_cons, List.foldl_nil, mem_supersede, induction,
        List.filter_append]
      by_cases same : last.path = found.path
      · rw [List.filter_singleton, beq_iff_eq.mpr same, cond_true, List.getLast?_concat,
          Option.some_inj]
        exact ⟨fun either => (either.resolve_right fun both => both.1 same.symm).symm,
          fun isLast => .inl isLast.symm⟩
      · rw [List.filter_singleton, beq_eq_false_iff_ne.mpr same, cond_false, List.append_nil]
        refine ⟨fun either => ?_, fun isLast => .inr ⟨Ne.symm same, isLast⟩⟩
        obtain rfl | both := either
        · exact absurd rfl same
        · exact both.2

end RelationRequest

/-- Merged requests have different paths. -/
theorem nodup_mergeRequests (requests : List RelationRequest) :
    ((mergeRequests requests).map RelationRequest.path).Nodup := by
  rw [((mergeRequests_perm requests).map _).nodup_iff]
  exact RelationRequest.nodup_foldl_supersede requests List.nodup_nil

/-- The merged requests are the last ones of their paths. -/
theorem mem_mergeRequests_iff {request : RelationRequest} :
    request ∈ mergeRequests requests ↔
      (requests.filter (·.path == request.path)).getLast? = some request := by
  rw [(mergeRequests_perm requests).mem_iff, RelationRequest.mem_foldl_supersede]

/-- Merging loses no path. -/
theorem path_mem_mergeRequests {path : String} :
    path ∈ (mergeRequests requests).map RelationRequest.path ↔
      path ∈ requests.map RelationRequest.path := by
  simp only [List.mem_map]
  constructor
  · rintro ⟨request, member, rfl⟩
    exact ⟨request, mem_mergeRequests member, rfl⟩
  · rintro ⟨request, member, rfl⟩
    have some : request ∈ requests.filter (·.path == request.path) :=
      List.mem_filter.mpr ⟨member, beq_self_eq_true _⟩
    obtain ⟨last, isLast⟩ := List.getLast?_isSome.mpr (List.ne_nil_of_mem some)
      |> Option.isSome_iff_exists.mp
    have samePath := (List.mem_filter.mp (List.mem_of_getLast? isLast)).2
    rw [beq_iff_eq] at samePath
    refine ⟨last, mem_mergeRequests_iff.mpr ?_, samePath⟩
    rw [samePath]
    exact isLast

end ResourceServer
