import Switchboard.Proofs.Exchange.Answers

/-! # What concerns one request

Of all that an exchange holds, a request is touched by its own entry, its own mailboxes, the source of
identifiers and the end of the connection. Whatever a caller does or happens from outside acts on this
part by itself, and a frame that answers another request, or none, does not act on it at all. An
exchange is no more than these parts taken together.
-/

namespace Switchboard

theorem PendingTable.find?_insert (t : PendingTable) (p : Pending) (id : RequestId) :
    (t.insert p).find? id = if p.id = id then some p else t.find? id := by
  obtain ⟨entries⟩ := t
  simp only [insert, find?]
  induction entries with
  | nil => by_cases same : p.id = id <;> simp [insertEntry, same]
  | cons q rest ih =>
      rw [insertEntry]
      by_cases first : p.id < q.id
      · rw [if_pos first]
        by_cases same : p.id = id <;> simp [same]
      · rw [if_neg first]
        by_cases equal : p.id = q.id
        · rw [if_pos equal]
          by_cases same : p.id = id <;> simp [same, ← equal]
        · rw [if_neg equal, List.find?_cons, List.find?_cons, ih]
          by_cases same : p.id = id
          · have apart : (q.id == id) = false := by simpa [← same] using Ne.symm equal
            simp [same, apart]
          · simp [same]

theorem PendingTable.find?_erase (t : PendingTable) (other id : RequestId) :
    (t.erase other).find? id = if other = id then none else t.find? id := by
  split
  case isTrue same =>
    rw [find?_eq_none, ids_erase, same]
    simp
  case isFalse apart =>
    simp only [erase, find?, List.find?_filter]
    congr 1
    funext p
    by_cases named : p.id = id
    · simp [named, Ne.symm apart]
    · simp [named]

/-- An ascending table is known by what it finds. -/
theorem PendingTable.ext_find? {t u : PendingTable} (first : t.Ascending) (second : u.Ascending)
    (same : ∀ id, t.find? id = u.find? id) : t = u := by
  have one_way : ∀ {t u : PendingTable}, t.Ascending → (∀ id, t.find? id = u.find? id) →
      ∀ p ∈ t.entries, p ∈ u.entries := by
    intro t u ascending same p member
    have found := find?_of_mem ascending member
    rw [same] at found
    exact (mem_of_find? found).1
  have perm : t.entries.Perm u.entries := by
    rw [List.perm_ext_iff_of_nodup]
    · intro p
      exact ⟨one_way first same p, one_way second (fun id => (same id).symm) p⟩
    · exact (nodup_ids first).of_map
    · exact (nodup_ids second).of_map
  have entries : t.entries = u.entries := by
    refine perm.eq_of_pairwise ?_ first second
    intro p q _ _ below above
    rw [RequestId.lt_iff_toNat] at below above
    omega
  cases t
  cases u
  exact congrArg PendingTable.mk entries

theorem PendingTable.erase_insert {t : PendingTable} (ascending : t.Ascending) {p : Pending}
    (fresh : p.id ∉ t.ids) : (t.insert p).erase p.id = t := by
  apply ext_find? (ascending_erase (ascending_insert fresh ascending) p.id) ascending
  intro id
  rw [find?_erase, find?_insert]
  split
  case isTrue same => rw [← same, find?_eq_none.mpr fresh]
  case isFalse => rfl

/-- What a wait leaves of a mailbox: one that ends gives the ticket up. -/
def Mailbox.waited : Mailbox → Mailbox
  | waiting => waiting
  | _ => discarded

namespace Exchange

/-- What concerns one identifier. Of other requests it shows only where their mailboxes are. -/
structure View where
  ids : IdSource
  rejectsOnClose : Bool
  closedFor : Option String
  entry : Option Pending
  boxes : List (RequestId × Option Mailbox)

/-- A mailbox as it stands in the view of an identifier. -/
def shown (id : RequestId) (entry : RequestId × Mailbox) : RequestId × Option Mailbox :=
  (entry.1, if entry.1 = id then some entry.2 else none)

def view (x : Exchange) (id : RequestId) : View :=
  ⟨x.ids, x.rejectsOnClose, x.closedFor, x.pending.find? id, x.mailroom.boxes.map (shown id)⟩

namespace View

def update (v : View) (ticket : Ticket) (f : Mailbox → Mailbox) : View :=
  { v with boxes := v.boxes.modify ticket fun entry => (entry.1, entry.2.map f) }

def settle (v : View) (f : Mailbox → Mailbox) : View :=
  match v.entry with
  | none => v
  | some p => { v.update p.ticket f with entry := none }

def «open» (v : View) (id owner : RequestId) (box : Mailbox) : View :=
  { v with boxes := v.boxes ++ [shown id (owner, box)] }

/-- What a step does by itself to the view of an identifier. -/
def enter (v : View) (id : RequestId) : Step → View
  | .dispatch now verb _ _ =>
    let new := v.ids.peek now
    match v.closedFor with
    | some reason => v.open id new (.holding (.error (.disconnected reason)))
    | none =>
      { v.open id new .waiting with
        ids := (v.ids.next now).2
        entry := if new = id then some ⟨new, verb, v.boxes.length⟩ else v.entry }
  | .event _ => v
  | .poll ticket | .waitFor ticket _ => v.update ticket Mailbox.emptied
  | .wait ticket => v.update ticket Mailbox.waited
  | .discard ticket => v.update ticket fun _ => .discarded

/-- What a happening does to the view of an identifier. -/
def undergo (v : View) (id : RequestId) : Happening → View
  | .event (.frame text) =>
    match ReplyFrame.answer? text with
    | some (other, reply) => if other = id then v.settle (·.deliver reply.outcome) else v
    | none => v
  | .event (.cancel other) => if other = id then v.settle Mailbox.giveUp else v
  | .event (.close reason) =>
    let first := v.closedFor.getD reason
    let v := { v with closedFor := some first }
    if v.rejectsOnClose then v.settle (·.deliver (.error (.disconnected first))) else v
  | .refusal other failure => if other = id then v.settle (·.deliver (.error failure)) else v

end View

variable {x y : Exchange} {id : RequestId}

section Operations

theorem map_shown_update (room : Mailroom) (id : RequestId) (ticket : Ticket)
    (f : Mailbox → Mailbox) :
    (room.update ticket f).boxes.map (shown id) =
      (room.boxes.map (shown id)).modify ticket fun entry => (entry.1, entry.2.map f) := by
  apply List.ext_getElem?
  intro other
  rw [List.getElem?_map, Mailroom.getElem?_update, List.getElem?_modify, List.getElem?_map]
  cases room.boxes[other]? with
  | none => simp
  | some entry =>
      by_cases same : other = ticket
      · by_cases own : entry.1 = id <;> simp [shown, same, own]
      · simp [same, Ne.symm same]

/-- A change to the mailbox of another request does not show. -/
theorem map_shown_update_of_ne {room : Mailroom} {ticket : Ticket} {other : RequestId} {box : Mailbox}
    (located : room.boxes[ticket]? = some (other, box)) (apart : other ≠ id) (f : Mailbox → Mailbox) :
    (room.update ticket f).boxes.map (shown id) = room.boxes.map (shown id) := by
  apply List.ext_getElem?
  intro place
  rw [List.getElem?_map, Mailroom.getElem?_update, List.getElem?_map]
  by_cases same : place = ticket
  · simp [same, located, shown, apart]
  · simp [same]

theorem view_touch (x : Exchange) (id : RequestId) (ticket : Ticket) (f : Mailbox → Mailbox) :
    (x.touch ticket f).view id = (x.view id).update ticket f := by
  simp only [view, touch, View.update, map_shown_update]

theorem Coherent.view_settle (coherent : Coherent x) (id other : RequestId) (f : Mailbox → Mailbox) :
    (x.settle other f).view id = if other = id then (x.view id).settle f else x.view id := by
  cases found : x.pending.find? other with
  | none =>
      rw [settle_of_not_mem x other f (PendingTable.find?_eq_none.mp found)]
      split
      case isTrue same =>
        subst same
        simp only [View.settle, view, found]
      case isFalse => rfl
  | some p =>
      rw [settle_of_find? x other f found]
      split
      case isTrue same =>
        subst same
        simp only [View.settle, view, found, View.update, map_shown_update, PendingTable.find?_erase,
          if_true]
      case isFalse apart =>
        obtain ⟨member, rfl⟩ := PendingTable.mem_of_find? found
        obtain ⟨box, -, located⟩ := coherent.housed p member
        simp only [view, map_shown_update_of_ne located apart, PendingTable.find?_erase, if_neg apart]

theorem View.settle_settle (v : View) (f g : Mailbox → Mailbox) :
    (v.settle f).settle g = v.settle f := by
  cases entry : v.entry <;> simp [View.settle, entry]

theorem Coherent.view_settleAll (coherent : Coherent x) (id : RequestId) {f : Mailbox → Mailbox}
    (settles : Mailbox.Settles f) (ids : List RequestId) :
    (x.settleAll ids f).view id = if id ∈ ids then (x.view id).settle f else x.view id := by
  induction ids generalizing x with
  | nil => simp
  | cons other rest ih =>
      rw [settleAll_cons, ih (coherent.settle other settles), coherent.view_settle]
      by_cases same : other = id
      · simp [same, View.settle_settle]
      · simp [same, Ne.symm same]

theorem Coherent.view_undergo (coherent : Coherent x) (id : RequestId) (h : Happening) :
    (x.undergo h).view id = (x.view id).undergo id h := by
  match h with
  | .refusal other failure =>
      rw [undergo_refusal]
      exact coherent.view_settle id other _
  | .event (.cancel other) =>
      rw [undergo_cancel]
      exact coherent.view_settle id other _
  | .event (.frame text) =>
      rw [View.undergo]
      cases answers : ReplyFrame.answer? text with
      | none => rw [undergo_frame_of_none answers]
      | some answer =>
          rw [undergo_frame answers]
          exact coherent.view_settle id answer.1 _
  | .event (.close reason) =>
      rw [undergo_close, x.close_snd coherent.ascending]
      by_cases rejects : x.rejectsOnClose
      · rw [if_pos rejects, (coherent.markClosed reason).view_settleAll id (Mailbox.settles_deliver _)]
        split
        case isTrue => simp [View.undergo, view, Exchange.markClosed, rejects]
        case isFalse absent =>
          have none := PendingTable.find?_eq_none.mpr absent
          simp [View.undergo, View.settle, view, Exchange.markClosed, rejects, none]
      · simp [View.undergo, view, Exchange.markClosed, rejects]

theorem Coherent.view_undergoAll (coherent : Coherent x) (id : RequestId) (hs : List Happening) :
    (x.undergoAll hs).view id = hs.foldl (fun v h => v.undergo id h) (x.view id) := by
  induction hs generalizing x with
  | nil => rfl
  | cons h rest ih =>
      rw [undergoAll_cons, ih (coherent.undergo h), coherent.view_undergo, List.foldl_cons]

theorem touch_congr {ticket : Ticket} {owner : RequestId} {box : Mailbox} {f g : Mailbox → Mailbox}
    (located : x.mailroom.boxes[ticket]? = some (owner, box)) (same : f box = g box) :
    x.touch ticket f = x.touch ticket g := by
  have boxes : (x.mailroom.update ticket f).boxes = (x.mailroom.update ticket g).boxes := by
    apply List.ext_getElem?
    intro other
    rw [Mailroom.getElem?_update, Mailroom.getElem?_update]
    split
    case isTrue here => simp [here, located, same]
    case isFalse => rfl
  exact congrArg (fun boxes => { x with mailroom := ⟨boxes⟩ }) boxes

theorem wait_touch (x : Exchange) (ticket : Ticket) :
    (x.wait ticket).2 = x.touch ticket Mailbox.waited := by
  rw [wait_snd]
  cases located : x.mailroom.boxes[ticket]? with
  | none =>
      have outside := List.getElem?_eq_none_iff.mp located
      have polled : (x.poll ticket).1 = none := by
        simp [poll, Mailroom.owner?, located]
      simp [polled, touch, Mailroom.update, List.modify_eq_self outside]
  | some entry =>
      obtain ⟨owner, box⟩ := entry
      rw [poll_fst located, discard_eq]
      cases box with
      | waiting => exact touch_congr located rfl
      | holding | spent | discarded => exact touch_congr located rfl

theorem view_enter (x : Exchange) (id : RequestId) (s : Step) :
    (x.enter s).view id = (x.view id).enter id s := by
  cases s with
  | dispatch now verb arguments handover =>
      cases gone : x.closedFor with
      | some reason => simp [enter, gone, turnAway, view, View.enter, View.open, Mailroom.open]
      | none =>
          simp [enter, gone, issue, view, View.enter, View.open, Mailroom.open, IdSource.next,
            PendingTable.find?_insert, Mailroom.nextTicket]
  | event e => rfl
  | poll ticket => rw [enter, poll_snd, view_touch, View.enter]
  | waitFor ticket limit => rw [enter, waitFor_snd, poll_snd, view_touch, View.enter]
  | wait ticket => rw [enter, wait_touch, view_touch, View.enter]
  | discard ticket => rw [enter, discard_eq, view_touch, View.enter]

end Operations

section Parts

theorem view_located {ticket : Ticket} {box : Mailbox} :
    (x.view id).boxes[ticket]? = some (id, some box) ↔
      x.mailroom.boxes[ticket]? = some (id, box) := by
  simp only [view, List.getElem?_map, Option.map_eq_some_iff]
  constructor
  · rintro ⟨⟨owner, found⟩, located, same⟩
    obtain ⟨rfl, rest⟩ := Prod.mk.inj same
    rw [located]
    simpa using rest
  · intro located
    exact ⟨_, located, by simp [shown]⟩

theorem view_owner? (x : Exchange) (id : RequestId) (ticket : Ticket) :
    x.mailroom.owner? ticket = (x.view id).boxes[ticket]?.map (·.1) := by
  simp [Mailroom.owner?, view, shown, Function.comp_def]

theorem view_pending : id ∈ x.pending.ids ↔ (x.view id).entry.isSome := by
  have absent : (x.view id).entry = none ↔ id ∉ x.pending.ids := PendingTable.find?_eq_none
  rw [← not_iff_not, ← absent]
  simp

/-- An exchange is all its views taken together. -/
theorem ext_view (first : x.pending.Ascending) (second : y.pending.Ascending)
    (same : ∀ id, x.view id = y.view id) : x = y := by
  have ids : x.ids = y.ids := congrArg View.ids (same ⟨0⟩)
  have policy : x.rejectsOnClose = y.rejectsOnClose := congrArg View.rejectsOnClose (same ⟨0⟩)
  have gone : x.closedFor = y.closedFor := congrArg View.closedFor (same ⟨0⟩)
  have pending : x.pending = y.pending :=
    PendingTable.ext_find? first second fun id => congrArg View.entry (same id)
  have boxes : x.mailroom.boxes = y.mailroom.boxes := by
    apply List.ext_getElem?
    intro ticket
    cases there : y.mailroom.boxes[ticket]? with
    | some entry =>
        have located := view_located.mpr there
        rw [← same] at located
        exact view_located.mp located
    | none =>
        cases here : x.mailroom.boxes[ticket]? with
        | none => rfl
        | some entry =>
            have located := view_located.mpr here
            rw [same, view_located, there] at located
            contradiction
  obtain ⟨ids, policy, pending, ⟨boxes⟩, gone⟩ := x
  obtain ⟨ids', policy', pending', ⟨boxes'⟩, gone'⟩ := y
  simp_all

end Parts

end Exchange

end Switchboard
