import Switchboard.PendingTable
import Switchboard.Proofs.RequestId

/-! # The pending table as a finite map

An ascending table holds at most one request for an identifier. Inserting a new identifier adds one
entry and taking removes one, up to the order of entries, and both keep the table ascending.
-/

namespace Switchboard.PendingTable

/-- The entries stand in strictly ascending order of their identifiers. -/
def Ascending (t : PendingTable) : Prop := t.entries.Pairwise fun p q => p.id < q.id

theorem ascending_empty : Ascending {} := List.Pairwise.nil

theorem insertEntry_perm {p : Pending} {entries : List Pending}
    (fresh : ∀ q ∈ entries, q.id ≠ p.id) : (insertEntry p entries).Perm (p :: entries) := by
  induction entries with
  | nil => exact List.Perm.refl _
  | cons q rest ih =>
      have other : p.id ≠ q.id := (fresh q List.mem_cons_self).symm
      have tail : (insertEntry p rest).Perm (p :: rest) :=
        ih fun r member => fresh r (List.mem_cons_of_mem q member)
      by_cases first : p.id < q.id
      · rw [insertEntry, if_pos first]
      · rw [insertEntry, if_neg first, if_neg other]
        exact (tail.cons q).trans (List.Perm.swap p q rest)

theorem insert_perm {t : PendingTable} {p : Pending} (fresh : p.id ∉ t.ids) :
    (t.insert p).entries.Perm (p :: t.entries) := by
  apply insertEntry_perm
  intro q member same
  exact fresh (List.mem_map.mpr ⟨q, member, same⟩)

theorem mem_insert {t : PendingTable} {p q : Pending} (fresh : p.id ∉ t.ids) :
    q ∈ (t.insert p).entries ↔ q = p ∨ q ∈ t.entries := by
  rw [(insert_perm fresh).mem_iff, List.mem_cons]

theorem insertEntry_pairwise {p : Pending} {entries : List Pending}
    (fresh : ∀ q ∈ entries, q.id ≠ p.id)
    (ascending : entries.Pairwise fun p q => p.id < q.id) :
    (insertEntry p entries).Pairwise fun p q => p.id < q.id := by
  induction entries with
  | nil => exact List.pairwise_singleton _ _
  | cons q rest ih =>
      obtain ⟨above, tail⟩ := List.pairwise_cons.mp ascending
      have other : p.id ≠ q.id := (fresh q List.mem_cons_self).symm
      have freshTail : ∀ r ∈ rest, r.id ≠ p.id :=
        fun r member => fresh r (List.mem_cons_of_mem q member)
      by_cases first : p.id < q.id
      · rw [insertEntry, if_pos first]
        refine List.pairwise_cons.mpr ⟨?_, ascending⟩
        intro r member
        rcases List.mem_cons.mp member with rfl | later
        · exact first
        · exact RequestId.lt_iff_toNat.mpr (Nat.lt_trans first (above r later))
      · rw [insertEntry, if_neg first, if_neg other]
        refine List.pairwise_cons.mpr ⟨?_, ih freshTail tail⟩
        intro r member
        rcases List.mem_cons.mp ((insertEntry_perm freshTail).mem_iff.mp member) with rfl | later
        · exact RequestId.lt_of_not_lt first other
        · exact above r later

theorem ascending_insert {t : PendingTable} {p : Pending} (fresh : p.id ∉ t.ids)
    (ascending : t.Ascending) : (t.insert p).Ascending := by
  refine insertEntry_pairwise ?_ ascending
  intro q member same
  exact fresh (List.mem_map.mpr ⟨q, member, same⟩)

theorem ascending_erase {t : PendingTable} (ascending : t.Ascending) (id : RequestId) :
    (t.erase id).Ascending :=
  List.Pairwise.sublist List.filter_sublist ascending

theorem nodup_ids {t : PendingTable} (ascending : t.Ascending) : t.ids.Nodup :=
  List.Pairwise.map _ (fun _ _ below => RequestId.ne_of_lt below) ascending

theorem eq_of_id_eq {t : PendingTable} (ascending : t.Ascending) {p q : Pending}
    (first : p ∈ t.entries) (second : q ∈ t.entries) (same : p.id = q.id) : p = q :=
  List.inj_on_of_nodup_map (nodup_ids ascending) first second same

theorem mem_ids {t : PendingTable} {id : RequestId} :
    id ∈ t.ids ↔ ∃ p ∈ t.entries, p.id = id := List.mem_map

theorem mem_erase {t : PendingTable} {id : RequestId} {p : Pending} :
    p ∈ (t.erase id).entries ↔ p ∈ t.entries ∧ p.id ≠ id := by
  simp only [erase, List.mem_filter, bne_iff_ne]

theorem ids_erase (t : PendingTable) (id : RequestId) :
    (t.erase id).ids = t.ids.filter fun other => other != id := by
  simp only [ids, erase, List.filter_map, Function.comp_def]

theorem mem_of_find? {t : PendingTable} {id : RequestId} {p : Pending}
    (found : t.find? id = some p) : p ∈ t.entries ∧ p.id = id := by
  rw [find?] at found
  have same := List.find?_some found
  exact ⟨List.mem_of_find?_eq_some found, beq_iff_eq.mp same⟩

theorem find?_eq_none {t : PendingTable} {id : RequestId} :
    t.find? id = none ↔ id ∉ t.ids := by
  simp only [find?, List.find?_eq_none, beq_iff_eq, mem_ids, not_exists, not_and]

theorem find?_of_mem {t : PendingTable} (ascending : t.Ascending) {p : Pending}
    (member : p ∈ t.entries) : t.find? p.id = some p := by
  cases found : t.find? p.id with
  | none => exact absurd (mem_ids.mpr ⟨p, member, rfl⟩) (find?_eq_none.mp found)
  | some q =>
      obtain ⟨inside, same⟩ := mem_of_find? found
      rw [eq_of_id_eq ascending inside member same]

theorem erase_of_not_mem {t : PendingTable} {id : RequestId} (absent : id ∉ t.ids) :
    t.erase id = t := by
  have all : t.entries.filter (fun p => p.id != id) = t.entries := by
    rw [List.filter_eq_self]
    intro p member
    rw [bne_iff_ne]
    intro same
    exact absent (mem_ids.mpr ⟨p, member, same⟩)
  rw [erase, all]

theorem erase_erase_self (t : PendingTable) (id : RequestId) : (t.erase id).erase id = t.erase id := by
  apply erase_of_not_mem
  simp [ids_erase]

theorem erase_comm (t : PendingTable) (first second : RequestId) :
    (t.erase first).erase second = (t.erase second).erase first := by
  simp only [erase, List.filter_filter, Bool.and_comm]

/-- Taking an identifier out takes exactly one entry. -/
theorem ids_perm_of_mem {t : PendingTable} (ascending : t.Ascending) {id : RequestId}
    (present : id ∈ t.ids) : t.ids.Perm (id :: (t.erase id).ids) := by
  rw [ids_erase, ← (nodup_ids ascending).erase_eq_filter]
  exact List.perm_cons_erase present

/-- Taking a request out takes nothing else. -/
theorem cons_erase_perm {t : PendingTable} (ascending : t.Ascending) {p : Pending}
    (member : p ∈ t.entries) : (p :: (t.erase p.id).entries).Perm t.entries := by
  have nodup : t.entries.Nodup := (nodup_ids ascending).of_map
  have same : (t.erase p.id).entries = t.entries.erase p := by
    rw [nodup.erase_eq_filter, erase]
    refine List.filter_congr ?_
    intro q inside
    rw [Bool.eq_iff_iff, bne_iff_ne, bne_iff_ne, not_iff_not]
    exact ⟨eq_of_id_eq ascending inside member, congrArg Pending.id⟩
  rw [same]
  exact (List.perm_cons_erase member).symm

end Switchboard.PendingTable
