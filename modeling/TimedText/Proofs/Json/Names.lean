import Mathlib.Data.List.Nodup
import TimedText.Json.Basic

/-!
# Names of members

Binding a name keeps the names of an object distinct: a name that is there stays in its place, and a
new one comes behind the others. An object whose names are distinct is what its members make.
-/

namespace TimedText

namespace Json

variable {α : Type} {k : String} {v : α} {l : List (String × α)}

theorem put_of_not_mem (h : k ∉ l.map Prod.fst) (v : α) : put k v l = l ++ [(k, v)] := by
  induction l with
  | nil => rfl
  | cons p l ih =>
    rw [List.map_cons, List.mem_cons, not_or] at h
    rw [put, if_neg (Ne.symm h.1), ih h.2]
    rfl

theorem map_fst_put_of_mem (h : k ∈ l.map Prod.fst) (v : α) :
    (put k v l).map Prod.fst = l.map Prod.fst := by
  induction l with
  | nil => cases h
  | cons p l ih =>
    unfold put
    split
    · next hk => rw [List.map_cons, List.map_cons, hk]
    · next hk =>
      have hrest : k ∈ l.map Prod.fst := (List.mem_cons.mp h).resolve_left (Ne.symm hk)
      rw [List.map_cons, List.map_cons, ih hrest]

theorem nodup_put (distinct : (l.map Prod.fst).Nodup) : ((put k v l).map Prod.fst).Nodup := by
  by_cases hk : k ∈ l.map Prod.fst
  · rw [map_fst_put_of_mem hk]
    exact distinct
  · rw [put_of_not_mem hk, List.map_append, List.map_singleton, ← List.concat_eq_append]
    exact distinct.concat hk

theorem mem_put {p : String × α} (h : p ∈ put k v l) : p = (k, v) ∨ p ∈ l := by
  induction l with
  | nil => exact .inl (List.mem_singleton.mp h)
  | cons q l ih =>
    unfold put at h
    split at h
    · exact (List.mem_cons.mp h).imp_right (List.mem_cons_of_mem q)
    · rcases List.mem_cons.mp h with rfl | h
      · exact .inr List.mem_cons_self
      · exact (ih h).imp_right (List.mem_cons_of_mem q)

theorem foldl_put {acc members : List (String × Json)}
    (distinct : ((acc ++ members).map Prod.fst).Nodup) :
    members.foldl (fun acc (k, v) => put k v acc) acc = acc ++ members := by
  induction members generalizing acc with
  | nil => exact (List.append_nil acc).symm
  | cons m members ih =>
    obtain ⟨k, v⟩ := m
    have hnew : k ∉ acc.map Prod.fst := by
      rw [List.map_append, List.nodup_append] at distinct
      exact fun h => distinct.2.2 _ h _ (List.mem_map_of_mem List.mem_cons_self) rfl
    rw [List.append_cons] at distinct ⊢
    rw [List.foldl_cons, ← ih distinct, ← put_of_not_mem hnew]

theorem ofMembers_of_distinct {members : List (String × Json)}
    (distinct : (members.map Prod.fst).Nodup) : ofMembers members = .dict members :=
  congrArg Json.dict (foldl_put distinct)

end Json

end TimedText
