import Switchboard.Registry
import Switchboard.Proofs.PendingTable

/-! # The ledger of a registry

What a registry is there for, said without a table and without mailboxes. The ledger keeps the life of
each request that was ever entered, one after the other, and the order in which they were taken out. A
request is listed until it is taken out, whoever takes it out completes it once or gives it up, and
whoever waits for the outcome reads it once.
-/

namespace Switchboard

/-- How far a request has come. -/
inductive Life.Stage where
  | listed
  /-- Taken out, and not used yet. -/
  | taken
  /-- Completed, and whether the outcome was read since. -/
  | completed (outcome : Outcome) (wasRead : Bool)
  | givenUp

/-- The life of a request. Its ticket is its position in the ledger. -/
structure Life where
  request : Pending
  stage : Life.Stage := .listed
  /-- Whether its mailbox was let go. -/
  dropped : Bool := false

namespace Life

/-- The request, if it is listed. -/
def listed? (life : Life) : Option Pending :=
  match life.stage with
  | .listed => some life.request
  | _ => none

def isTaken (life : Life) : Bool :=
  match life.stage with
  | .taken => true
  | _ => false

theorem stage_of_isTaken {life : Life} (taken : life.isTaken) : life.stage = .taken := by
  unfold isTaken at taken
  split at taken
  case h_1 stage => exact stage
  case h_2 => contradiction

/-- What a reader sees. -/
def sight (life : Life) : Glimpse :=
  if life.dropped then .gone
  else
    match life.stage with
    | .listed | .taken => .empty
    | .completed outcome false => .found outcome
    | .completed _ true | .givenUp => .exhausted

/-- The life of a request after a look at its outcome. -/
def look (life : Life) : Life :=
  match life.dropped, life.stage with
  | false, .completed outcome _ => { life with stage := .completed outcome true }
  | _, _ => life

/-- The outcome that was read, if it was. -/
def readOutcome? (life : Life) : Option Outcome :=
  match life.stage with
  | .completed outcome true => some outcome
  | _ => none

end Life

/-- The lives of all requests, in the order in which they were entered, and the requests that were
taken out, in the order of taking. -/
structure Ledger where
  lives : List Life := []
  handedOut : List Pending := []

namespace Ledger

open Registry (Step Answer)

/-- The requests that are listed, oldest first. -/
def listed (l : Ledger) : List Pending := l.lives.filterMap Life.listed?

/-- Whether a request was taken out and not used yet. -/
def isUnused (l : Ledger) (p : Pending) : Bool :=
  match l.lives[p.ticket]? with
  | some life => life.isTaken
  | none => false

/-- The ledger with a change to the life of one request. -/
def change (l : Ledger) (ticket : Ticket) (f : Life → Life) : Ledger :=
  { l with lives := l.lives.modify ticket f }

def handOver (l : Ledger) (ps : List Pending) : Ledger where
  lives := l.lives.map fun life => if life.request ∈ ps then { life with stage := .taken } else life
  handedOut := l.handedOut ++ ps

/-- Uses the request that was taken out as the `n`-th. -/
def settle (l : Ledger) (n : Nat) (stage : Life.Stage) : Answer × Ledger :=
  match l.handedOut[n]? with
  | some p =>
    if l.isUnused p then (.done, l.change p.ticket fun life => { life with stage }) else (.gone, l)
  | none => (.gone, l)

def inAscendingOrder (ps : List Pending) : List Pending :=
  ps.mergeSort fun p q => p.id.value ≤ q.id.value

theorem inAscendingOrder_perm (ps : List Pending) : (inAscendingOrder ps).Perm ps :=
  List.mergeSort_perm ps _

theorem pairwise_inAscendingOrder (ps : List Pending) :
    (inAscendingOrder ps).Pairwise fun p q => p.id.value ≤ q.id.value := by
  have sorted : (inAscendingOrder ps).Pairwise fun p q => decide (p.id.value ≤ q.id.value) = true := by
    apply List.pairwise_mergeSort
    · intro p q s first second
      simp only [decide_eq_true_eq, UInt64.le_iff_toNat_le] at first second ⊢
      omega
    · intro p q
      simp only [Bool.or_eq_true, decide_eq_true_eq, UInt64.le_iff_toNat_le]
      omega
  exact sorted.imp of_decide_eq_true

/-- Does one step. No step but an insertion changes the life of more requests than those it is about. -/
def step (l : Ledger) : Step → Answer × Ledger
  | .insert id verb =>
    if l.listed.any (·.id == id) then (.duplicate, l)
    else
      let request : Pending := { id, verb, ticket := l.lives.length }
      (.inserted request.ticket, { l with lives := l.lives ++ [{ request }] })
  | .take id =>
    match l.listed.find? (·.id == id) with
    | none => (.taken none, l)
    | some p => (.taken (some p), l.handOver [p])
  | .contains id => (.present (l.listed.any (·.id == id)), l)
  | .drain order =>
    let leaving := order.arrange (inAscendingOrder l.listed)
    (.drained leaving, l.handOver leaving)
  | .complete n outcome => l.settle n (.completed outcome false)
  | .giveUp n => l.settle n .givenUp
  | .read ticket =>
    match l.lives[ticket]? with
    | some life => (.seen life.sight, l.change ticket Life.look)
    | none => (.seen .gone, l)
  | .discard ticket =>
    match l.lives[ticket]? with
    | some life =>
      if life.dropped then (.gone, l)
      else (.done, l.change ticket fun life => { life with dropped := true })
    | none => (.gone, l)

def run (l : Ledger) : List Step → List Answer × Ledger
  | [] => ([], l)
  | s :: rest =>
    let (answer, l) := l.step s
    let (answers, l) := l.run rest
    (answer :: answers, l)

end Ledger

end Switchboard
