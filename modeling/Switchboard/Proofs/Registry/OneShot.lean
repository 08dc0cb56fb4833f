import Switchboard.Proofs.Registry.Refinement

/-! # A registry is a map of one-shot mailboxes

What a whole run of a registry comes to. The steps may use an identifier again as soon as its request
has left the table, use requests long after they have left it, and let go of mailboxes at any time. An
insertion of an identifier that is present is refused and changes nothing.
-/

namespace Switchboard

namespace Registry

/-- The registry after some steps. -/
def after (r : Registry) (steps : List Step) : Registry := (r.run steps).2

/-- The steps of a run with what they return. -/
def trace (r : Registry) (steps : List Step) : List (Step × Answer) := steps.zip (r.run steps).1

theorem trace_cons (r : Registry) (s : Step) (rest : List Step) :
    r.trace (s :: rest) = (s, (r.step s).1) :: (r.step s).2.trace rest := rfl

/-- The request that a step enters. -/
def entered? : Step × Answer → Option Pending
  | (.insert id verb, .inserted ticket) => some { id, verb, ticket }
  | _ => none

/-- The requests that a step takes out. -/
def leaving : Step × Answer → List Pending
  | (_, .taken entry) => entry.toList
  | (_, .drained entries) => entries
  | _ => []

/-- The outcome that a step reads from the mailbox of a ticket. -/
def reading? (ticket : Ticket) : Step × Answer → Option Outcome
  | (.read other, .seen (.found outcome)) => if other = ticket then some outcome else none
  | _ => none

/-- The outcome that a step completes the request of a ticket with. -/
def completion? (r : Registry) (ticket : Ticket) : Step → Option Outcome
  | .complete n outcome =>
    match r.taken[n]? with
    | some (some p) => if p.ticket = ticket then some outcome else none
    | _ => none
  | _ => none

def completions (r : Registry) (ticket : Ticket) : List Step → List Outcome
  | [] => []
  | s :: rest => (r.completion? ticket s).toList ++ (r.step s).2.completions ticket rest

end Registry

namespace Life

/-- The outcome that the request was completed with, if it was. -/
def completedWith? (life : Life) : Option Outcome :=
  match life.stage with
  | .completed outcome _ => some outcome
  | _ => none

theorem completedWith?_of_isTaken {life : Life} (taken : life.isTaken) : life.completedWith? = none := by
  simp only [completedWith?, stage_of_isTaken taken]

theorem readOutcome?_of_isTaken {life : Life} (taken : life.isTaken) : life.readOutcome? = none := by
  simp only [readOutcome?, stage_of_isTaken taken]

theorem completedWith?_look (life : Life) : life.look.completedWith? = life.completedWith? := by
  obtain ⟨request, stage, dropped⟩ := life
  cases dropped <;> cases stage <;> rfl

theorem readOutcome?_prefix (life : Life) :
    life.readOutcome?.toList <+: life.completedWith?.toList := by
  obtain ⟨request, stage, dropped⟩ := life
  cases stage with
  | completed outcome wasRead => cases wasRead <;> simp [readOutcome?, completedWith?]
  | listed | taken | givenUp => exact List.prefix_refl _

theorem readOutcome?_look (life : Life) :
    life.look.readOutcome?.toList =
      life.readOutcome?.toList ++
        match life.sight with
        | .found outcome => [outcome]
        | _ => [] := by
  obtain ⟨request, stage, dropped⟩ := life
  cases dropped with
  | true => exact (List.append_nil _).symm
  | false =>
      cases stage with
      | completed outcome wasRead => cases wasRead <;> rfl
      | listed | taken | givenUp => rfl

end Life

namespace Ledger

open Registry (Step Answer)

variable {l : Ledger} {r : Registry}

def after (l : Ledger) (steps : List Step) : Ledger := (l.run steps).2

/-- What a step can do to a ledger. -/
inductive Stepped (l : Ledger) : Step → Answer → Ledger → Prop
  | entered (id : RequestId) (verb : String) :
      Stepped l (.insert id verb) (.inserted l.lives.length)
        { l with lives := l.lives ++ [{ request := ⟨id, verb, l.lives.length⟩ }] }
  | took {id : RequestId} {p : Pending} (listed : p ∈ l.listed) :
      Stepped l (.take id) (.taken (some p)) (l.handOver [p])
  | drained (order : PendingTable.Order) :
      Stepped l (.drain order) (.drained (order.arrange (inAscendingOrder l.listed)))
        (l.handOver (order.arrange (inAscendingOrder l.listed)))
  | completed {n : Nat} {p : Pending} (outcome : Outcome) (there : l.handedOut[n]? = some p)
      (unused : l.isUnused p) :
      Stepped l (.complete n outcome) .done
        (l.change p.ticket fun life => { life with stage := .completed outcome false })
  | gaveUp {n : Nat} {p : Pending} (there : l.handedOut[n]? = some p) (unused : l.isUnused p) :
      Stepped l (.giveUp n) .done (l.change p.ticket fun life => { life with stage := .givenUp })
  | looked {ticket : Ticket} {life : Life} (found : l.lives[ticket]? = some life) :
      Stepped l (.read ticket) (.seen life.sight) (l.change ticket Life.look)
  | dropped (ticket : Ticket) :
      Stepped l (.discard ticket) .done (l.change ticket fun life => { life with dropped := true })
  | idle {s : Step} {answer : Answer} (entered : Registry.entered? (s, answer) = none)
      (leaving : Registry.leaving (s, answer) = [])
      (reading : ∀ ticket, Registry.reading? ticket (s, answer) = none)
      (unusable : ∀ n outcome, s = .complete n outcome →
        ∀ p, l.handedOut[n]? = some p → l.isUnused p = false) : Stepped l s answer l

theorem stepped (l : Ledger) (s : Step) : l.Stepped s (l.step s).1 (l.step s).2 := by
  have other : ∀ {s : Step} {answer : Answer}, (∀ n outcome, s ≠ .complete n outcome) →
      Registry.entered? (s, answer) = none → Registry.leaving (s, answer) = [] →
      (∀ ticket, Registry.reading? ticket (s, answer) = none) → l.Stepped s answer l :=
    fun apart entered leaving reading =>
      .idle entered leaving reading fun n outcome same => absurd same (apart n outcome)
  cases s with
  | insert id verb =>
      simp only [step]
      split
      · exact other (by simp) rfl rfl fun _ => rfl
      · exact .entered id verb
  | take id =>
      simp only [step]
      split
      case h_1 => exact other (by simp) rfl rfl fun _ => rfl
      case h_2 p found => exact .took (List.mem_of_find?_eq_some found)
  | contains id => exact other (by simp) rfl rfl fun _ => rfl
  | drain order => exact .drained order
  | complete n outcome =>
      simp only [step, settle]
      split
      case h_1 p there =>
        split
        case isTrue unused => exact .completed outcome there unused
        case isFalse used =>
          refine .idle rfl rfl (fun _ => rfl) ?_
          rintro m other ⟨⟩ q here
          obtain rfl := Option.some.inj (there.symm.trans here)
          simpa using used
      case h_2 nowhere =>
        refine .idle rfl rfl (fun _ => rfl) ?_
        rintro m other ⟨⟩ q here
        simp [nowhere] at here
  | giveUp n =>
      simp only [step, settle]
      split
      case h_1 p there =>
        split
        case isTrue unused => exact .gaveUp there unused
        case isFalse => exact other (by simp) rfl rfl fun _ => rfl
      case h_2 => exact other (by simp) rfl rfl fun _ => rfl
  | read ticket =>
      simp only [step]
      split
      case h_1 life found => exact .looked found
      case h_2 => exact other (by simp) rfl rfl fun _ => rfl
  | discard ticket =>
      simp only [step]
      split
      case h_1 life found =>
        split
        · exact other (by simp) rfl rfl fun _ => rfl
        · exact .dropped ticket
      case h_2 => exact other (by simp) rfl rfl fun _ => rfl

section Accounts

/-- A step enters what it says it enters, and takes out what it says it takes out. -/
theorem Stepped.accounts {s : Step} {answer : Answer} {next : Ledger} (stepped : l.Stepped s answer next) :
    next.lives.map Life.request =
        l.lives.map Life.request ++ (Registry.entered? (s, answer)).toList ∧
      next.handedOut = l.handedOut ++ Registry.leaving (s, answer) := by
  cases stepped with
  | entered id verb => exact ⟨List.map_append, (List.append_nil _).symm⟩
  | took | drained =>
      exact ⟨(handOver_requests l _).trans (List.append_nil _).symm, rfl⟩
  | completed | gaveUp | dropped =>
      refine ⟨Eq.trans ?_ (List.append_nil _).symm, (List.append_nil _).symm⟩
      exact l.lives_change_map fun _ _ => rfl
  | looked found =>
      refine ⟨Eq.trans ?_ (List.append_nil _).symm, (List.append_nil _).symm⟩
      exact l.lives_change_map fun life _ => life.look_keeps.1
  | idle entered leaving => simp [entered, leaving]

theorem filterMap_cons_toList {α β : Type} (f : α → Option β) (a : α) (rest : List α) :
    (a :: rest).filterMap f = (f a).toList ++ rest.filterMap f := by
  rw [List.filterMap_cons]
  cases f a <;> rfl

theorem run_accounts (l : Ledger) (steps : List Step) :
    (l.after steps).lives.map Life.request =
        l.lives.map Life.request ++ (steps.zip (l.run steps).1).filterMap Registry.entered? ∧
      (l.after steps).handedOut =
        l.handedOut ++ (steps.zip (l.run steps).1).flatMap Registry.leaving := by
  induction steps generalizing l with
  | nil => exact ⟨(List.append_nil _).symm, (List.append_nil _).symm⟩
  | cons s rest ih =>
      obtain ⟨entered, left⟩ := (l.stepped s).accounts
      obtain ⟨enteredLater, leftLater⟩ := ih (l.step s).2
      constructor
      · rw [entered, List.append_assoc] at enteredLater
        refine enteredLater.trans (congrArg (_ ++ ·) ?_)
        exact (filterMap_cons_toList Registry.entered? (s, (l.step s).1) _).symm
      · rw [left, List.append_assoc] at leftLater
        exact leftLater

end Accounts

section Marks

/-- What the life of a ticket has on record. -/
def marks (l : Ledger) (mark : Life → Option Outcome) (ticket : Ticket) : List Outcome :=
  (l.lives.map mark)[ticket]?.join.toList

variable {mark : Life → Option Outcome} {ticket : Ticket}

theorem marks_of_life {life : Life} (found : l.lives[ticket]? = some life) :
    l.marks mark ticket = (mark life).toList := by
  rw [marks, List.getElem?_map, found, Option.map_some, Option.join_some]

theorem marks_entered (l : Ledger) {life : Life} (unmarked : mark life = none) (ticket : Ticket) :
    marks { l with lives := l.lives ++ [life] } mark ticket = l.marks mark ticket := by
  rw [marks, List.map_append, List.map_singleton, unmarked, List.getElem?_append]
  split
  case isTrue => rfl
  case isFalse outside =>
    rw [marks, List.getElem?_eq_none (Nat.le_of_not_lt outside)]
    cases ticket - (l.lives.map mark).length <;> rfl

theorem marks_change (l : Ledger) {k : Ticket} {f : Life → Life}
    (same : ∀ life, l.lives[k]? = some life → mark (f life) = mark life) (ticket : Ticket) :
    (l.change k f).marks mark ticket = l.marks mark ticket := by
  rw [marks, l.lives_change_map same, marks]

theorem marks_change_of_ne (l : Ledger) {k : Ticket} (f : Life → Life) (apart : k ≠ ticket) :
    (l.change k f).marks mark ticket = l.marks mark ticket := by
  rw [marks, marks, List.getElem?_map, List.getElem?_map, change, List.getElem?_modify_ne _ _ apart]

theorem getElem?_change_self {f : Life → Life} {life : Life} (found : l.lives[ticket]? = some life) :
    (l.change ticket f).lives[ticket]? = some (f life) := by
  simp [change, found]

theorem marks_handOver (d : l.Describes r) {ps : List Pending} (listed : ∀ p ∈ ps, p ∈ l.listed)
    (same : ∀ life : Life, life.stage = .listed → mark { life with stage := .taken } = mark life)
    (ticket : Ticket) : (l.handOver ps).marks mark ticket = l.marks mark ticket := by
  have each : (l.handOver ps).lives.map mark = l.lives.map mark :=
    l.lives_handOver_map fun life inside leaves =>
      same life (d.stage_of_listed inside (listed _ leaves))
  rw [marks, each, marks]

/-- Only what a request was completed with is read. -/
theorem marks_read_prefix (l : Ledger) (ticket : Ticket) :
    l.marks Life.readOutcome? ticket <+: l.marks Life.completedWith? ticket := by
  cases found : l.lives[ticket]? with
  | none => simp [marks, found]
  | some life =>
      rw [marks_of_life found, marks_of_life found]
      exact life.readOutcome?_prefix

theorem isTaken_of_isUnused {p : Pending} {life : Life} (unused : l.isUnused p)
    (found : l.lives[p.ticket]? = some life) : life.isTaken := by
  simpa only [isUnused, found] using unused

theorem arrange_subset (order : PendingTable.Order) {ps : List Pending} :
    ∀ p ∈ order.arrange (inAscendingOrder ps), p ∈ ps :=
  fun _ => ((order.perm _).trans (inAscendingOrder_perm ps)).mem_iff.mp

/-- A look brings out the outcome on record, once. -/
theorem Stepped.reading {s : Step} {answer : Answer} {next : Ledger} (stepped : l.Stepped s answer next)
    (d : l.Describes r) (ticket : Ticket) :
    next.marks Life.readOutcome? ticket =
      l.marks Life.readOutcome? ticket ++ (Registry.reading? ticket (s, answer)).toList := by
  have kept : ∀ {m : Ledger}, m.marks Life.readOutcome? ticket = l.marks Life.readOutcome? ticket →
      m.marks Life.readOutcome? ticket = l.marks Life.readOutcome? ticket ++ [] :=
    fun same => same.trans (List.append_nil _).symm
  cases stepped with
  | entered id verb => exact kept (l.marks_entered rfl ticket)
  | took listed =>
      refine kept (marks_handOver d (by simpa using listed) ?_ ticket)
      intro life stage
      simp [Life.readOutcome?, stage]
  | drained order =>
      refine kept (marks_handOver d (arrange_subset order) ?_ ticket)
      intro life stage
      simp [Life.readOutcome?, stage]
  | completed _ there unused | gaveUp there unused =>
      refine kept (l.marks_change ?_ ticket)
      intro life found
      exact (Life.readOutcome?_of_isTaken (isTaken_of_isUnused unused found)).symm
  | dropped =>
      refine kept (l.marks_change ?_ ticket)
      exact fun _ _ => rfl
  | @looked other life found =>
      by_cases here : other = ticket
      · subst here
        rw [marks_of_life (getElem?_change_self found), marks_of_life found, life.readOutcome?_look]
        cases life.sight <;> simp [Registry.reading?]
      · rw [l.marks_change_of_ne _ here]
        cases life.sight <;> simp [Registry.reading?, here]
  | idle entered leaving reading => simp [reading]

/-- A completion is put on record, once. -/
theorem Stepped.completion {s : Step} {answer : Answer} {next : Ledger}
    (stepped : l.Stepped s answer next) (d : l.Describes r) (ticket : Ticket) :
    next.marks Life.completedWith? ticket =
      l.marks Life.completedWith? ticket ++ (r.completion? ticket s).toList := by
  have kept : ∀ {m : Ledger}, m.marks Life.completedWith? ticket = l.marks Life.completedWith? ticket →
      m.marks Life.completedWith? ticket = l.marks Life.completedWith? ticket ++ [] :=
    fun same => same.trans (List.append_nil _).symm
  have taken : ∀ n : Nat, r.taken[n]? = l.handedOut[n]?.map l.unused? := by
    intro n
    rw [d.taken, List.getElem?_map]
  cases stepped with
  | entered id verb => exact kept (l.marks_entered rfl ticket)
  | took listed =>
      refine kept (marks_handOver d (by simpa using listed) ?_ ticket)
      intro life stage
      simp [Life.completedWith?, stage]
  | drained order =>
      refine kept (marks_handOver d (arrange_subset order) ?_ ticket)
      intro life stage
      simp [Life.completedWith?, stage]
  | @completed n p outcome there unused =>
      have usable : r.taken[n]? = some (some p) := by simp [taken, there, unused?, unused]
      obtain ⟨-, life, found, rfl⟩ := d.life_of_handedOut (List.mem_of_getElem? there)
      have before := Life.completedWith?_of_isTaken (isTaken_of_isUnused unused found)
      by_cases here : life.request.ticket = ticket
      · subst here
        rw [marks_of_life (getElem?_change_self found), marks_of_life found, before]
        simp [Registry.completion?, usable, Life.completedWith?]
      · rw [l.marks_change_of_ne _ here]
        simp [Registry.completion?, usable, here]
  | gaveUp there unused =>
      refine kept (l.marks_change ?_ ticket)
      intro life found
      exact (Life.completedWith?_of_isTaken (isTaken_of_isUnused unused found)).symm
  | dropped =>
      refine kept (l.marks_change ?_ ticket)
      exact fun _ _ => rfl
  | looked found =>
      refine kept (l.marks_change ?_ ticket)
      exact fun life _ => life.completedWith?_look
  | idle entered leaving reading unusable =>
      cases s with
      | complete n outcome =>
          cases there : l.handedOut[n]? with
          | none => simp [Registry.completion?, taken, there]
          | some p => simp [Registry.completion?, taken, there, unused?, unusable n outcome rfl p there]
      | insert | take | contains | drain | giveUp | read | discard => exact kept rfl

theorem Describes.run_marks (d : l.Describes r) (steps : List Step) (ticket : Ticket) :
    (l.after steps).marks Life.readOutcome? ticket =
        l.marks Life.readOutcome? ticket ++ (r.trace steps).filterMap (Registry.reading? ticket) ∧
      (l.after steps).marks Life.completedWith? ticket =
        l.marks Life.completedWith? ticket ++ r.completions ticket steps := by
  induction steps generalizing l r with
  | nil => exact ⟨(List.append_nil _).symm, (List.append_nil _).symm⟩
  | cons s rest ih =>
      have stepped := l.stepped s
      obtain ⟨answer, next⟩ := d.step s
      obtain ⟨readLater, completedLater⟩ := ih next
      constructor
      · rw [stepped.reading d ticket, List.append_assoc, ← answer] at readLater
        rw [Registry.trace_cons, filterMap_cons_toList]
        exact readLater
      · rw [stepped.completion d ticket, List.append_assoc] at completedLater
        exact completedLater

end Marks

end Ledger

namespace Registry

/-- The registry of a run is a map of one-shot mailboxes. -/
structure OneShot (steps : List Step) : Prop where
  /-- Every step returns what the ledger says. -/
  answers : (run {} steps).1 = (Ledger.run {} steps).1
  /-- The table finds the request of an identifier that was entered and not taken out since, and there
  is no more than one. -/
  finds : ∀ id p, (after {} steps).table.find? id = some p ↔
    p ∈ (Ledger.after {} steps).listed ∧ p.id = id
  /-- The identifiers are in strictly ascending order, and there are as many as the table is large. -/
  ids : (after {} steps).table.ids.Pairwise (· < ·) ∧
    (after {} steps).table.ids.length = (after {} steps).table.size
  /-- Of the requests that were entered, each with a mailbox of its own, those that were not taken out
  are in the table, and no request was taken out twice. -/
  left : ((trace {} steps).flatMap leaving ++ (after {} steps).table.entries).Perm
      ((trace {} steps).filterMap entered?) ∧
    ((trace {} steps).filterMap entered?).map Pending.ticket =
      List.range (after {} steps).mailroom.boxes.length
  /-- A mailbox shows how far the life of its request has come. -/
  sights : ∀ ticket, ((after {} steps).mailroom.box ticket).peek =
    match (Ledger.after {} steps).lives[ticket]? with
    | some life => life.sight
    | none => .gone
  /-- A request is completed at most once, and no one reads another outcome than that, or reads it
  twice. -/
  once : ∀ ticket, (completions {} ticket steps).length ≤ 1 ∧
    (trace {} steps).filterMap (reading? ticket) <+: completions {} ticket steps
  /-- To complete a request whose mailbox was let go uses it up and changes nothing else. -/
  unheard : ∀ n p outcome, (after {} steps).taken[n]? = some (some p) →
    (after {} steps).mailroom.box p.ticket = .discarded →
    (after {} steps).step (.complete n outcome) =
      (.done, { after {} steps with taken := (after {} steps).taken.set n none })

/-- Whatever the steps are, a registry is a map of one-shot mailboxes. -/
theorem registry_is_one_shot (steps : List Step) : OneShot steps := by
  have answers : (run {} steps).1 = (Ledger.run {} steps).1 := (Ledger.describes_empty.run steps).1
  have d : (Ledger.after {} steps).Describes (after {} steps) := (Ledger.describes_empty.run steps).2
  have accounts := Ledger.run_accounts {} steps
  rw [← answers] at accounts
  have entered : (Ledger.after {} steps).lives.map Life.request =
      (trace {} steps).filterMap entered? := accounts.1
  have left : (Ledger.after {} steps).handedOut = (trace {} steps).flatMap leaving := accounts.2
  constructor
  case answers => exact answers
  case finds => exact fun id p => d.find?_eq_some_iff
  case ids => exact ⟨List.Pairwise.map _ (fun _ _ below => below) d.ascending, List.length_map ..⟩
  case left =>
    have accounted := (d.listed.append_left _).trans d.accounted
    rw [entered, left] at accounted
    refine ⟨accounted, ?_⟩
    rw [← entered, List.map_map, d.boxes, List.length_map]
    exact d.numbered
  case sights =>
    intro ticket
    have located := d.located ticket
    cases found : (Ledger.after {} steps).lives[ticket]? with
    | none =>
        rw [found] at located
        exact congrArg Mailbox.peek (Mailroom.box_of_none located)
    | some life =>
        rw [found] at located
        exact (congrArg Mailbox.peek (Mailroom.box_eq located)).trans life.peek_box
  case once =>
    intro ticket
    obtain ⟨read, completed⟩ := Ledger.describes_empty.run_marks steps ticket
    have readings : (Ledger.after {} steps).marks Life.readOutcome? ticket =
        (trace {} steps).filterMap (reading? ticket) := read
    have completions : (Ledger.after {} steps).marks Life.completedWith? ticket =
        completions {} ticket steps := completed
    rw [← readings, ← completions]
    exact ⟨Option.length_toList_le, Ledger.marks_read_prefix _ ticket⟩
  case unheard =>
    intro n p outcome usable letGo
    have still := Mailroom.update_of_discarded letGo (f := (·.deliver outcome)) rfl
    simp only [step, settle, usable, still]

/-- An identifier that is used again does not connect its requests: the first one is completed after
the second one was entered, and each mailbox keeps to its own. -/
example :
    (run {} [.insert ⟨1⟩ "GET", .take ⟨1⟩, .insert ⟨1⟩ "SET", .complete 0 (.ok .null), .read 1, .read 0,
      .read 0]).1 =
      [.inserted 0, .taken (some ⟨⟨1⟩, "GET", 0⟩), .inserted 1, .done, .seen .empty,
        .seen (.found (.ok .null)), .seen .exhausted] := rfl

end Registry

end Switchboard
