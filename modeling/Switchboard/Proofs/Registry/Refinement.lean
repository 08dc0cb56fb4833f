import Switchboard.Proofs.Registry.Ledger
import Switchboard.Proofs.Mailroom

/-! # A registry does what its ledger says

The table holds just the requests that the ledger lists, each mailbox is the one of its life, and a
request that was taken out can be used just as long as the ledger has it unused. Every step of both
keeps that, and returns the same.
-/

namespace Switchboard

theorem map_modify {α β : Type} {xs : List α} {k : Nat} {f : α → α} {g : β → β} (b : α → β)
    (same : ∀ a, xs[k]? = some a → b (f a) = g (b a)) :
    (xs.modify k f).map b = (xs.map b).modify k g := by
  apply List.ext_getElem?
  intro j
  rw [List.getElem?_map]
  by_cases here : k = j
  · subst here
    rw [List.getElem?_modify_eq, List.getElem?_modify_eq, List.getElem?_map]
    cases found : xs[k]? with
    | none => rfl
    | some a => exact congrArg some (same a found)
  · rw [List.getElem?_modify_ne _ _ here, List.getElem?_modify_ne _ _ here, List.getElem?_map]

/-- The mailbox of a request, by how far its life has come. -/
def Life.box (life : Life) : Mailbox :=
  if life.dropped then .discarded
  else
    match life.stage with
    | .listed | .taken => .waiting
    | .completed outcome false => .holding outcome
    | .completed _ true | .givenUp => .spent

theorem Life.listed?_of_isTaken {life : Life} (taken : life.isTaken) : life.listed? = none := by
  simp only [listed?, stage_of_isTaken taken]

theorem Life.box_of_isTaken {life : Life} (taken : life.isTaken) :
    life.box = if life.dropped then .discarded else .waiting := by
  simp only [box, stage_of_isTaken taken]

theorem Life.peek_box (life : Life) : life.box.peek = life.sight := by
  obtain ⟨request, stage, dropped⟩ := life
  cases dropped with
  | true => rfl
  | false =>
      cases stage with
      | completed outcome wasRead => cases wasRead <;> rfl
      | listed | taken | givenUp => rfl

theorem Life.look_keeps (life : Life) :
    life.look.request = life.request ∧ life.look.listed? = life.listed? ∧
      life.look.isTaken = life.isTaken ∧ life.look.box = life.box.emptied := by
  obtain ⟨request, stage, dropped⟩ := life
  cases dropped with
  | true => exact ⟨rfl, rfl, rfl, rfl⟩
  | false =>
      cases stage with
      | completed outcome wasRead => cases wasRead <;> exact ⟨rfl, rfl, rfl, rfl⟩
      | listed | taken | givenUp => exact ⟨rfl, rfl, rfl, rfl⟩

theorem Life.box_eq_discarded {life : Life} : life.box = .discarded ↔ life.dropped := by
  obtain ⟨request, stage, dropped⟩ := life
  cases dropped with
  | true => simp [box]
  | false =>
      cases stage with
      | completed outcome wasRead => cases wasRead <;> simp [box]
      | listed | taken | givenUp => simp [box]

namespace Ledger

open Registry (Step Answer)

variable {l : Ledger} {r : Registry}

def unused? (l : Ledger) (p : Pending) : Option Pending := if l.isUnused p then some p else none

theorem unused?_of_life {p : Pending} {life : Life} (found : l.lives[p.ticket]? = some life) :
    l.unused? p = if life.isTaken then some p else none := by
  simp only [unused?, isUnused, found]

theorem lives_change_map {α : Type} (l : Ledger) {k : Ticket} {f : Life → Life} {b : Life → α}
    (same : ∀ life, l.lives[k]? = some life → b (f life) = b life) :
    (l.change k f).lives.map b = l.lives.map b :=
  (map_modify (g := id) b same).trans (List.modify_id ..)

/-- What taking a request out does not change, a hand-over of several does not change. -/
theorem lives_handOver_map {α : Type} (l : Ledger) {ps : List Pending} {b : Life → α}
    (same : ∀ life ∈ l.lives, life.request ∈ ps → b { life with stage := .taken } = b life) :
    (l.handOver ps).lives.map b = l.lives.map b := by
  rw [handOver, List.map_map]
  refine List.map_congr_left ?_
  intro life inside
  simp only [Function.comp_apply]
  split
  case isTrue leaves => exact same life inside leaves
  case isFalse => rfl

theorem handOver_requests (l : Ledger) (ps : List Pending) :
    (l.handOver ps).lives.map Life.request = l.lives.map Life.request :=
  l.lives_handOver_map fun _ _ _ => rfl

theorem listed_handOver (l : Ledger) (ps : List Pending) :
    (l.handOver ps).listed = l.listed.filter fun p => decide (p ∉ ps) := by
  rw [listed, listed, handOver, List.filterMap_map, List.filter_filterMap]
  refine List.filterMap_congr ?_
  intro life _
  by_cases leaves : life.request ∈ ps <;> cases stage : life.stage <;>
    simp [Life.listed?, leaves, stage, Option.filter]

/-- A registry is in the state that its ledger describes. -/
structure Describes (l : Ledger) (r : Registry) : Prop where
  numbered : l.lives.map (·.request.ticket) = List.range l.lives.length
  boxes : r.mailroom.boxes = l.lives.map fun life => (life.request.id, life.box)
  ascending : r.table.Ascending
  listed : r.table.entries.Perm l.listed
  taken : r.taken = l.handedOut.map l.unused?
  /-- No request is lost, and none leaves twice. -/
  accounted : (l.handedOut ++ l.listed).Perm (l.lives.map Life.request)

theorem describes_empty : Describes {} {} :=
  ⟨rfl, rfl, PendingTable.ascending_empty, List.Perm.nil, rfl, List.Perm.nil⟩

namespace Describes

section Lookups

theorem nodup_requests (d : l.Describes r) : (l.lives.map Life.request).Nodup := by
  have tickets : ((l.lives.map Life.request).map Pending.ticket).Nodup := by
    rw [List.map_map]
    exact d.numbered ▸ List.nodup_range
  exact tickets.of_map

theorem ticket_eq (d : l.Describes r) {k : Ticket} {life : Life} (found : l.lives[k]? = some life) :
    life.request.ticket = k := by
  have numbered := congrArg (·[k]?) d.numbered
  obtain ⟨inside, rfl⟩ := List.getElem?_eq_some_iff.mp found
  simpa [inside] using numbered

theorem exists_life (d : l.Describes r) {p : Pending} (member : p ∈ l.lives.map Life.request) :
    ∃ life, l.lives[p.ticket]? = some life ∧ life.request = p := by
  obtain ⟨life, inside, rfl⟩ := List.mem_map.mp member
  obtain ⟨k, found⟩ := List.mem_iff_getElem?.mp inside
  rw [d.ticket_eq found]
  exact ⟨life, found, rfl⟩

/-- A request that was handed out has a life that is not listed any more. -/
theorem life_of_handedOut (d : l.Describes r) {p : Pending} (member : p ∈ l.handedOut) :
    p ∉ l.listed ∧ ∃ life, l.lives[p.ticket]? = some life ∧ life.request = p := by
  have nodup := d.accounted.nodup_iff.mpr d.nodup_requests
  refine ⟨List.disjoint_of_nodup_append nodup member, d.exists_life ?_⟩
  exact d.accounted.mem_iff.mp (List.mem_append_left _ member)

theorem located (d : l.Describes r) (ticket : Ticket) :
    r.mailroom.boxes[ticket]? = l.lives[ticket]?.map fun life => (life.request.id, life.box) := by
  rw [d.boxes, List.getElem?_map]

theorem ids_perm (d : l.Describes r) : r.table.ids.Perm (l.listed.map Pending.id) := d.listed.map _

theorem contains_eq (d : l.Describes r) (id : RequestId) :
    r.table.contains id = l.listed.any (·.id == id) := by
  rw [Bool.eq_iff_iff, PendingTable.contains, List.contains_iff_mem, d.ids_perm.mem_iff]
  simp

theorem find?_eq_some_iff (d : l.Describes r) {id : RequestId} {p : Pending} :
    r.table.find? id = some p ↔ p ∈ l.listed ∧ p.id = id := by
  rw [← d.listed.mem_iff]
  constructor
  · exact PendingTable.mem_of_find?
  · rintro ⟨member, rfl⟩
    exact PendingTable.find?_of_mem d.ascending member

theorem find?_eq (d : l.Describes r) (id : RequestId) :
    r.table.find? id = l.listed.find? (·.id == id) := by
  cases found : l.listed.find? (·.id == id) with
  | some p =>
      have named := List.find?_some found
      exact d.find?_eq_some_iff.mpr ⟨List.mem_of_find?_eq_some found, beq_iff_eq.mp named⟩
  | none =>
      rw [PendingTable.find?_eq_none, d.ids_perm.mem_iff]
      simpa using found

theorem inAscendingOrder_listed (d : l.Describes r) : inAscendingOrder l.listed = r.table.entries := by
  have perm : (inAscendingOrder l.listed).Perm r.table.entries :=
    (inAscendingOrder_perm l.listed).trans d.listed.symm
  have ascending : r.table.entries.Pairwise fun p q => p.id.value ≤ q.id.value :=
    d.ascending.imp fun below => UInt64.le_of_lt below
  refine perm.eq_of_pairwise ?_ (pairwise_inAscendingOrder l.listed) ascending
  intro p q first second below above
  have same : p.id = q.id := congrArg RequestId.mk (UInt64.le_antisymm below above)
  exact PendingTable.eq_of_id_eq d.ascending (perm.mem_iff.mp first) second same

end Lookups

section Changes

theorem nextTicket_eq (d : l.Describes r) : r.mailroom.nextTicket = l.lives.length := by
  rw [Mailroom.nextTicket, d.boxes, List.length_map]

theorem insert (d : l.Describes r) {request : Pending} (absent : request.id ∉ r.table.ids)
    (ticket : request.ticket = l.lives.length) :
    Describes { l with lives := l.lives ++ [{ request }] }
      { r with
        table := r.table.insert request
        mailroom := r.mailroom.open request.id .waiting } where
  numbered := by
    simp [List.range_succ, d.numbered, ticket]
  boxes := by
    simp [Mailroom.open, d.boxes, Life.box]
  ascending := PendingTable.ascending_insert absent d.ascending
  listed := by
    have grown : (r.table.insert request).entries.Perm (request :: l.listed) :=
      (PendingTable.insert_perm absent).trans (d.listed.cons request)
    simpa [Ledger.listed, Life.listed?] using grown.trans (List.perm_append_singleton _ _).symm
  taken := by
    rw [d.taken]
    refine List.map_congr_left ?_
    intro p member
    obtain ⟨-, life, found, -⟩ := d.life_of_handedOut member
    let grown : Ledger := { l with lives := l.lives ++ [{ request }] }
    have still : grown.lives[p.ticket]? = some life := by
      rw [List.getElem?_append_left (List.getElem?_eq_some_iff.mp found).1, found]
    exact (unused?_of_life found).trans (unused?_of_life still).symm
  accounted := by
    have grown := d.accounted.append_right [request]
    simpa [Ledger.listed, Life.listed?] using grown

/-- A change to the life of one request that leaves it where it is, together with the change to its
mailbox. -/
theorem change (d : l.Describes r) {k : Ticket} {f : Life → Life} {g : Mailbox → Mailbox}
    (keeps : ∀ life, l.lives[k]? = some life →
      (f life).request = life.request ∧ (f life).listed? = life.listed? ∧ (f life).box = g life.box)
    {taken : List (Option Pending)} (used : taken = l.handedOut.map (l.change k f).unused?) :
    (l.change k f).Describes { r with mailroom := r.mailroom.update k g, taken } := by
  have requests : (l.change k f).lives.map Life.request = l.lives.map Life.request :=
    l.lives_change_map fun life found => (keeps life found).1
  have entries : (l.change k f).listed = l.listed := by
    have each : (l.change k f).lives.map Life.listed? = l.lives.map Life.listed? :=
      l.lives_change_map fun life found => (keeps life found).2.1
    simpa [Ledger.listed, List.filterMap_map] using congrArg (List.filterMap id) each
  constructor
  case numbered =>
    have tickets := congrArg (List.map Pending.ticket) requests
    simpa [Ledger.change, d.numbered, List.map_map, Function.comp_def] using tickets
  case boxes =>
    change r.mailroom.boxes.modify k _ = _
    rw [d.boxes]
    refine (map_modify _ ?_).symm
    intro life found
    obtain ⟨request, -, box⟩ := keeps life found
    rw [request, box]
  case ascending => exact d.ascending
  case listed => rw [entries]; exact d.listed
  case taken => exact used
  case accounted => rw [entries, requests]; exact d.accounted

/-- Of the requests that were taken out, only the one whose life changes is used up. -/
theorem unused_change (d : l.Describes r) {n : Nat} {life : Life} {f : Life → Life}
    (there : l.handedOut[n]? = some life.request)
    (found : l.lives[life.request.ticket]? = some life) (used : (f life).isTaken = false) :
    (l.handedOut.map l.unused?).set n none =
      l.handedOut.map (l.change life.request.ticket f).unused? := by
  have inside : n < l.handedOut.length := (List.getElem?_eq_some_iff.mp there).1
  have nodup : l.handedOut.Nodup :=
    (List.nodup_append.mp (d.accounted.nodup_iff.mpr d.nodup_requests)).1
  apply List.ext_getElem?
  intro j
  rw [List.getElem?_set, List.getElem?_map, List.getElem?_map]
  by_cases here : n = j
  · subst here
    have changed : (l.change life.request.ticket f).lives[life.request.ticket]? = some (f life) := by
      simp [Ledger.change, found]
    rw [there, Option.map_some, Option.map_some, unused?_of_life changed, used]
    simp [inside]
  · rw [if_neg here]
    cases other : l.handedOut[j]? with
    | none => rfl
    | some q =>
        obtain ⟨-, life', found', rfl⟩ := d.life_of_handedOut (List.mem_of_getElem? other)
        have apart : life.request.ticket ≠ life'.request.ticket := by
          intro same
          rw [← same, found] at found'
          cases found'
          exact here ((List.getElem?_inj inside nodup).mp (there.trans other.symm))
        have still : (l.change life.request.ticket f).lives[life'.request.ticket]? = some life' := by
          rw [Ledger.change, List.getElem?_modify_ne _ _ apart, found']
        rw [Option.map_some, Option.map_some, unused?_of_life found', unused?_of_life still]

theorem settle (d : l.Describes r) (n : Nat) {stage : Life.Stage} {g : Mailbox → Mailbox}
    (spent : ∀ life : Life, { life with stage }.listed? = none ∧ { life with stage }.isTaken = false)
    (brings : ∀ life : Life, life.isTaken → { life with stage }.box = g life.box) :
    (r.settle n g).1 = (l.settle n stage).1 ∧ (l.settle n stage).2.Describes (r.settle n g).2 := by
  have taken : r.taken[n]? = l.handedOut[n]?.map l.unused? := by rw [d.taken, List.getElem?_map]
  cases there : l.handedOut[n]? with
  | none =>
      rw [there] at taken
      simp only [Registry.settle, taken, Ledger.settle, there]
      exact ⟨rfl, d⟩
  | some p =>
      obtain ⟨-, life, found, rfl⟩ := d.life_of_handedOut (List.mem_of_getElem? there)
      rw [there, Option.map_some, unused?_of_life found] at taken
      have unused : l.isUnused life.request = life.isTaken := by simp only [isUnused, found]
      cases isTaken : life.isTaken with
      | false =>
          rw [isTaken] at taken unused
          simp only [Registry.settle, taken, Ledger.settle, there, unused]
          exact ⟨rfl, d⟩
      | true =>
          rw [isTaken, if_pos rfl] at taken
          rw [isTaken] at unused
          simp only [Registry.settle, taken, Ledger.settle, there, unused, if_true]
          refine ⟨trivial, d.change ?_ ?_⟩
          · intro other same
            obtain rfl := Option.some.inj (found.symm.trans same)
            exact ⟨rfl, (spent life).1.trans (Life.listed?_of_isTaken isTaken).symm, brings life isTaken⟩
          · rw [d.taken]
            exact d.unused_change there found (spent life).2

/-- A change that does not concern whoever may complete the request. -/
theorem touch (d : l.Describes r) (k : Ticket) {f : Life → Life} {g : Mailbox → Mailbox}
    (keeps : ∀ life : Life, (f life).request = life.request ∧ (f life).listed? = life.listed? ∧
      (f life).isTaken = life.isTaken ∧ (f life).box = g life.box) :
    (l.change k f).Describes { r with mailroom := r.mailroom.update k g } := by
  refine d.change (fun life _ => ⟨(keeps life).1, (keeps life).2.1, (keeps life).2.2.2⟩) ?_
  rw [d.taken]
  refine List.map_congr_left ?_
  intro p member
  obtain ⟨-, life, found, -⟩ := d.life_of_handedOut member
  by_cases here : k = p.ticket
  · have changed : (l.change k f).lives[p.ticket]? = some (f life) := by
      simp [Ledger.change, here, found]
    rw [unused?_of_life found, unused?_of_life changed, (keeps life).2.2.1]
  · have still : (l.change k f).lives[p.ticket]? = some life := by
      rw [Ledger.change, List.getElem?_modify_ne _ _ here, found]
    rw [unused?_of_life found, unused?_of_life still]

theorem stage_of_listed (d : l.Describes r) {life : Life} (inside : life ∈ l.lives)
    (listed : life.request ∈ l.listed) : life.stage = .listed := by
  obtain ⟨other, member, entry⟩ := List.mem_filterMap.mp listed
  unfold Life.listed? at entry
  split at entry
  case h_2 => contradiction
  case h_1 stage =>
    have same : other = life :=
      List.inj_on_of_nodup_map d.nodup_requests member inside (Option.some.inj entry)
    rwa [← same]

/-- Requests that are listed leave the table, one or all of them. -/
theorem handOver (d : l.Describes r) {ps : List Pending} {table : PendingTable}
    (ascending : table.Ascending) (leave : (ps ++ table.entries).Perm r.table.entries) :
    (l.handOver ps).Describes { r with table, taken := r.taken ++ ps.map some } := by
  have split := leave.trans d.listed
  have member : ∀ p ∈ ps, p ∈ l.listed := fun p inside =>
    split.mem_iff.mp (List.mem_append_left _ inside)
  have nodup : (ps ++ table.entries).Nodup := by
    have all := d.accounted.nodup_iff.mpr d.nodup_requests
    exact split.nodup_iff.mpr (List.nodup_append.mp all).2.1
  have listed : table.entries.Perm (l.handOver ps).listed := by
    have stay : (ps ++ table.entries).filter (fun p => decide (p ∉ ps)) = table.entries := by
      have gone : ps.filter (fun p => decide (p ∉ ps)) = [] := by simp
      have rest : table.entries.filter (fun p => decide (p ∉ ps)) = table.entries := by
        rw [List.filter_eq_self]
        intro p inside
        exact decide_eq_true fun leaves => List.disjoint_of_nodup_append nodup leaves inside
      rw [List.filter_append, gone, rest, List.nil_append]
    rw [listed_handOver, ← stay]
    exact split.filter _
  have requests := l.handOver_requests ps
  constructor
  case numbered =>
    have tickets := congrArg (List.map Pending.ticket) requests
    simpa [Ledger.handOver, d.numbered, List.map_map, Function.comp_def] using tickets
  case boxes =>
    refine d.boxes.trans (l.lives_handOver_map ?_).symm
    intro life inside leaves
    simp [Life.box, d.stage_of_listed inside (member _ leaves)]
  case ascending => exact ascending
  case listed => exact listed
  case taken =>
    change _ = (l.handedOut ++ ps).map (l.handOver ps).unused?
    rw [List.map_append, d.taken]
    refine congrArg₂ (· ++ ·) (List.map_congr_left ?_) (List.map_congr_left ?_)
    · intro p earlier
      obtain ⟨unlisted, life, found, rfl⟩ := d.life_of_handedOut earlier
      have stays : life.request ∉ ps := fun leaves => unlisted (member _ leaves)
      have still : (l.handOver ps).lives[life.request.ticket]? = some life := by
        simp [Ledger.handOver, found, stays]
      rw [unused?_of_life found, unused?_of_life still]
    · intro p leaves
      have entered : p ∈ l.lives.map Life.request :=
        d.accounted.mem_iff.mp (List.mem_append_right _ (member p leaves))
      obtain ⟨life, found, rfl⟩ := d.exists_life entered
      have changed : (l.handOver ps).lives[life.request.ticket]? =
          some { life with stage := .taken } := by
        simp [Ledger.handOver, found, leaves]
      rw [unused?_of_life changed]
      rfl
  case accounted =>
    rw [requests, Ledger.handOver, List.append_assoc]
    exact ((listed.symm.append_left ps).trans split).append_left l.handedOut |>.trans d.accounted

end Changes

/-- What a step returns, and what it leaves, is what the ledger says. -/
theorem step (d : l.Describes r) (s : Step) :
    (r.step s).1 = (l.step s).1 ∧ (l.step s).2.Describes (r.step s).2 := by
  cases s with
  | insert id verb =>
      have present := d.contains_eq id
      cases listed : l.listed.any (·.id == id) with
      | true =>
          rw [listed] at present
          simp only [Registry.step, Ledger.step, present, listed, if_true]
          exact ⟨trivial, d⟩
      | false =>
          rw [listed] at present
          have absent : id ∉ r.table.ids := by simpa [PendingTable.contains] using present
          simp only [Registry.step, Ledger.step, present, listed, Bool.false_eq_true, if_false,
            d.nextTicket_eq]
          exact ⟨trivial, d.insert absent rfl⟩
  | take id =>
      have same := d.find?_eq id
      cases found : l.listed.find? (·.id == id) with
      | none =>
          rw [found] at same
          simp only [Registry.step, Ledger.step, PendingTable.take, same, found]
          exact ⟨trivial, d⟩
      | some p =>
          rw [found] at same
          obtain ⟨member, rfl⟩ := PendingTable.mem_of_find? same
          simp only [Registry.step, Ledger.step, PendingTable.take, same, found]
          exact ⟨trivial, d.handOver (PendingTable.ascending_erase d.ascending p.id)
            (PendingTable.cons_erase_perm d.ascending member)⟩
  | contains id => exact ⟨congrArg Answer.present (d.contains_eq id), d⟩
  | drain order =>
      simp only [Registry.step, Ledger.step, PendingTable.drain, d.inAscendingOrder_listed]
      refine ⟨trivial, d.handOver PendingTable.ascending_empty ?_⟩
      rw [List.append_nil]
      exact order.perm r.table.entries
  | complete n outcome =>
      refine d.settle n (fun _ => ⟨rfl, rfl⟩) ?_
      intro life taken
      rw [Life.box_of_isTaken taken]
      cases life.dropped <;> rfl
  | giveUp n =>
      refine d.settle n (fun _ => ⟨rfl, rfl⟩) ?_
      intro life taken
      rw [Life.box_of_isTaken taken]
      cases life.dropped <;> simp [Life.box, Mailbox.giveUp]
  | read ticket =>
      have located := d.located ticket
      cases found : l.lives[ticket]? with
      | none =>
          rw [found] at located
          simp only [Registry.step, Ledger.step, Mailroom.take, found,
            Mailroom.update_of_none located, Mailroom.box_of_none located]
          exact ⟨rfl, d⟩
      | some life =>
          rw [found] at located
          simp only [Registry.step, Ledger.step, Mailroom.take, found, Mailroom.box_eq located,
            Life.peek_box]
          exact ⟨trivial, d.touch ticket Life.look_keeps⟩
  | discard ticket =>
      have located := d.located ticket
      cases found : l.lives[ticket]? with
      | none =>
          rw [found] at located
          simp only [Registry.step, Ledger.step, found, Mailroom.box_of_none located]
          exact ⟨trivial, d⟩
      | some life =>
          rw [found] at located
          cases dropped : life.dropped with
          | true =>
              have gone := Life.box_eq_discarded.mpr dropped
              simp only [Registry.step, Ledger.step, found, Mailroom.box_eq located, gone, dropped,
                if_true]
              exact ⟨trivial, d⟩
          | false =>
              have kept : life.box ≠ .discarded := by simp [Life.box_eq_discarded, dropped]
              have stepped : r.step (.discard ticket) =
                  (.done, { r with mailroom := r.mailroom.update ticket fun _ => .discarded }) := by
                simp only [Registry.step, Mailroom.box_eq located]
              simp only [stepped, Ledger.step, found, dropped, Bool.false_eq_true, if_false]
              exact ⟨trivial, d.touch ticket fun _ => ⟨rfl, rfl, rfl, rfl⟩⟩

theorem run (d : l.Describes r) (steps : List Step) :
    (r.run steps).1 = (l.run steps).1 ∧ (l.run steps).2.Describes (r.run steps).2 := by
  induction steps generalizing l r with
  | nil => exact ⟨rfl, d⟩
  | cons s rest ih =>
      obtain ⟨answer, next⟩ := d.step s
      obtain ⟨answers, final⟩ := ih next
      exact ⟨congrArg₂ List.cons answer answers, final⟩

end Describes

end Ledger

end Switchboard
