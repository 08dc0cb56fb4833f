import Switchboard.Proofs.Json.Grammar

/-! # Every text of the grammar is taken in

Whatever containers a text of the grammar stands in, the reader makes the same of it: a value, or a
fault of a numeral or a string that no value can hold. A text that is passed over has no such fault. The
statement is about every stack, so that it holds of the parts of a container.
-/

namespace Switchboard.Json

variable {care : Care} {depth : Nat} {stack : List Frame} {frame : Frame} {cs : List Char}
  {outcome : Except ReadError Json} {problem : ReadError} {r t u : Reader} {c : Char}

/-- The reader takes in a text as a value, or finds a fault in it. A container, a string or a word is
over with its last character, a numeral only with the character after it. -/
inductive Takes (care : Care) (depth : Nat) (stack : List Frame) :
    List Char → Except ReadError Json → Prop
  | closed {front : List Char} {last : Char} {r : Reader} {v : Json}
      (moves : Moves (Reader.step care depth) ⟨stack, .value⟩ front r)
      (delivers : r.step care depth last = .ok (Reader.deliver v stack)) :
      Takes care depth stack (front ++ [last]) (.ok v)
  | numeral {cs : List Char} {n : Numeral}
      (moves : Moves (Reader.step care depth) ⟨stack, .value⟩ cs ⟨stack, .numeral n⟩)
      (complete : n.isComplete) : Takes care depth stack cs (Reader.numeralValue care n)
  | faulty {cs : List Char} {problem : ReadError}
      (faults : Faults (Reader.step care depth) ⟨stack, .value⟩ cs problem) :
      Takes care depth stack cs (.error problem)

/-- After a text the reader goes on as from another state, whatever ends the text. If there is a fault
in it, that shows at its end at the latest. -/
inductive Comes (care : Care) (depth : Nat) (r : Reader) (cs : List Char) :
    Except ReadError Reader → Prop
  | reaches {s t : Reader} (moves : Moves (Reader.step care depth) r cs s)
      (like : ∀ c, Numeral.EndsAt c → s.step care depth c = t.step care depth c) :
      Comes care depth r cs (.ok t)
  | faulty {problem : ReadError}
      (faults : ∀ c, Numeral.EndsAt c → Faults (Reader.step care depth) r (cs ++ [c]) problem) :
      Comes care depth r cs (.error problem)

theorem Numeral.endsAt_of_isBlank (blank : isBlank c) : EndsAt c := by
  simp only [isBlank, Bool.or_eq_true, beq_iff_eq] at blank
  rcases blank with ((rfl | rfl) | rfl) | rfl <;> simp [EndsAt]

section Coming

namespace Comes

theorem refl (r : Reader) : Comes care depth r [] (.ok r) := .reaches (.nil r) fun _ _ => rfl

theorem next {ds : List Char} {result : Except ReadError Reader}
    (comes : Comes care depth r cs (.ok t)) (ends : Numeral.EndsAt c)
    (takes : t.step care depth c = .ok (.more u)) (rest : Comes care depth u ds result) :
    Comes care depth r (cs ++ c :: ds) result := by
  cases comes with
  | reaches moves like =>
      have whole := moves.append (.single ((like c ends).trans takes))
      rw [List.append_cons]
      cases rest with
      | reaches onward likewise => exact .reaches (whole.append onward) likewise
      | faulty faults =>
          refine .faulty fun d stop => ?_
          rw [List.append_assoc]
          exact (faults d stop).after whole

theorem stop (comes : Comes care depth r cs (.error problem)) (ends : Numeral.EndsAt c)
    (ds : List Char) : Comes care depth r (cs ++ c :: ds) (.error problem) := by
  cases comes with
  | faulty faults =>
      refine .faulty fun d _ => ?_
      rw [List.append_assoc, List.cons_append, List.append_cons]
      exact (faults c ends).append (ds ++ [d])

theorem after {front : List Char} {result : Except ReadError Reader}
    (moves : Moves (Reader.step care depth) r front t) (comes : Comes care depth t cs result) :
    Comes care depth r (front ++ cs) result := by
  cases comes with
  | reaches onward like => exact .reaches (moves.append onward) like
  | faulty faults =>
      refine .faulty fun c ends => ?_
      rw [List.append_assoc]
      exact (faults c ends).after moves

/-- Two states that agree on the first character of a text agree on all of it. -/
theorem congr_head {result : Except ReadError Reader}
    (same : r.step care depth c = t.step care depth c) (comes : Comes care depth t (c :: cs) result) :
    Comes care depth r (c :: cs) result := by
  cases comes with
  | reaches moves like =>
      cases moves with
      | cons first rest => exact .reaches (.cons (same.trans first) rest) like
  | faulty faults =>
      refine .faulty fun d ends => ?_
      obtain ⟨front, e, rest, s, spelled, moves, refuses⟩ := faults d ends
      rw [List.cons_append] at spelled ⊢
      cases moves with
      | nil =>
          obtain ⟨rfl, -⟩ := List.cons.inj spelled
          exact ⟨[], c, cs ++ [d], r, rfl, .nil r, same.trans refuses⟩
      | @cons _ u _ c' front first onward =>
          obtain ⟨rfl, tail⟩ := List.cons.inj spelled
          exact ⟨c :: front, e, rest, s, congrArg (List.cons c) tail, .cons (same.trans first) onward,
            refuses⟩

end Comes

theorem moves_blank {gap : List Char} (blank : Blank gap)
    (loops : ∀ c, isBlank c → r.step care depth c = .ok (.more r)) :
    Moves (Reader.step care depth) r gap r := by
  induction gap with
  | nil => exact .nil r
  | cons c gap ih =>
      obtain ⟨first, later⟩ := List.forall_mem_cons.mp blank
      exact .cons (loops c first) (ih later)

/-- Blanks after a text change nothing, if nothing changes by a blank. -/
theorem Comes.blank {gap : List Char} (comes : Comes care depth r cs (.ok t)) (blank : Blank gap)
    (loops : ∀ c, isBlank c → t.step care depth c = .ok (.more t)) :
    Comes care depth r (cs ++ gap) (.ok t) := by
  cases gap with
  | nil => rwa [List.append_nil]
  | cons c gap =>
      obtain ⟨first, later⟩ := List.forall_mem_cons.mp blank
      refine comes.next (Numeral.endsAt_of_isBlank first) (loops c first) ?_
      exact .reaches (moves_blank later loops) fun _ _ => rfl

theorem Comes.error_append (comes : Comes care depth r cs (.error problem)) (gap : List Char)
    (blank : Blank gap) : Comes care depth r (cs ++ gap) (.error problem) := by
  cases gap with
  | nil => rwa [List.append_nil]
  | cons c gap =>
      exact comes.stop (Numeral.endsAt_of_isBlank (blank c List.mem_cons_self)) gap

/-- Inside a container, what ends a part finds the part in its place, or a fault in it. -/
theorem Takes.part (takes : Takes care depth (frame :: stack) cs outcome) :
    Comes care depth ⟨frame :: stack, .value⟩ cs
      (outcome.map fun v => ⟨stack, Reader.accept v frame⟩) := by
  cases takes with
  | closed moves delivers => exact .reaches (moves.append (.single delivers)) fun _ _ => rfl
  | faulty faults => exact .faulty fun c _ => faults.append [c]
  | @numeral _ n moves complete =>
      cases value : Reader.numeralValue care n with
      | ok v =>
          refine .reaches moves fun c ends => ?_
          have ended := Numeral.step_of_isComplete complete ends
          cases frame <;> simp [Reader.step, ended, value, Reader.accept]
      | error problem =>
          refine .faulty fun c ends => Faults.after moves (.single ?_)
          simp [Reader.step, Numeral.step_of_isComplete complete ends, value]

end Coming

section Parts

/-- A state in which the value of a part may start. -/
structure Awaits (care : Care) (depth : Nat) (r : Reader) (frame : Frame) (stack : List Frame) :
    Prop where
  loops : ∀ c, isBlank c → r.step care depth c = .ok (.more r)
  starts : ∀ c, isBlank c = false → c ≠ ']' →
    r.step care depth c = Reader.step care depth ⟨frame :: stack, .value⟩ c

theorem awaits_value : Awaits care depth ⟨frame :: stack, .value⟩ frame stack where
  loops := fun c blank => by simp [Reader.step, Reader.startValue, blank, Except.map]
  starts := fun _ _ _ => rfl

theorem awaits_firstItem : Awaits care depth ⟨stack, .firstItem⟩ (.item []) stack where
  loops := fun c blank => by simp [Reader.step, blank]
  starts := fun c blank other => by simp [Reader.step, blank, other]

/-- Texts that start like a value. -/
def Opening (cs : List Char) : Prop := ∃ c rest, cs = c :: rest ∧ isBlank c = false ∧ c ≠ ']'

theorem loops_accept (v : Json) (frame : Frame) (c : Char) (blank : isBlank c) :
    Reader.step care depth ⟨stack, Reader.accept v frame⟩ c =
      .ok (.more ⟨stack, Reader.accept v frame⟩) := by
  cases frame <;> simp [Reader.step, Reader.accept, Reader.afterPart, blank]

theorem Padded.comes {p : Padded} (awaits : Awaits care depth r frame stack)
    (opening : Opening p.core) (takes : Takes care depth (frame :: stack) p.core outcome) :
    Comes care depth r p.text (outcome.map fun v => ⟨stack, Reader.accept v frame⟩) := by
  refine .after (moves_blank p.blankBefore awaits.loops) ?_
  obtain ⟨c, rest, spelled, blank, other⟩ := opening
  have comes := takes.part
  rw [spelled] at comes
  have started := Comes.congr_head (awaits.starts c blank other) comes
  rw [← spelled] at started
  cases outcome with
  | ok v => exact started.blank p.blankAfter (loops_accept v frame)
  | error problem => exact started.error_append p.after p.blankAfter

section Chains

variable {α β ε : Type} {f : α → Except ε β} {a : α} {rest : List α}

theorem mapM_cons_of_ok {b : β} (value : f a = .ok b) :
    (a :: rest).mapM f = (rest.mapM f).map (List.cons b) := by
  rw [List.mapM_cons, value]
  cases rest.mapM f <;> rfl

theorem mapM_cons_of_error {e : ε} (value : f a = .error e) : (a :: rest).mapM f = .error e := by
  rw [List.mapM_cons, value]
  rfl

theorem mapM_of_forall_ok (all : ∀ a ∈ rest, ∃ b, f a = .ok b) : ∃ bs, rest.mapM f = .ok bs := by
  induction rest with
  | nil => exact ⟨[], rfl⟩
  | cons a rest ih =>
      obtain ⟨⟨b, first⟩, later⟩ := List.forall_mem_cons.mp all
      obtain ⟨bs, others⟩ := ih later
      exact ⟨b :: bs, by rw [mapM_cons_of_ok first, others]; rfl⟩

theorem foldlM_of_forall_ok {f : β → α → Except ε β} (all : ∀ b, ∀ a ∈ rest, ∃ c, f b a = .ok c)
    (b : β) : ∃ c, rest.foldlM f b = .ok c := by
  induction rest generalizing b with
  | nil => exact ⟨b, rfl⟩
  | cons a rest ih =>
      obtain ⟨c, first⟩ := all b a List.mem_cons_self
      rw [List.foldlM_cons, first]
      exact ih (fun b d member => all b d (List.mem_cons_of_mem a member)) c

end Chains

variable {α : Type}

/-- The text of a part is taken in. -/
structure TakesPart (care : Care) (depth : Nat) (stack : List Frame) (text : Padded)
    (outcome : Except ReadError Json) : Prop where
  opening : Opening text.core
  takes : ∀ frame, Takes care depth (frame :: stack) text.core outcome

theorem comes_items {items : List α} {text : α → Padded} {f : α → Except ReadError Json}
    (each : ∀ a ∈ items, TakesPart care depth stack (text a) (f a)) (filled : items ≠ [])
    {done : List Json} (awaits : Awaits care depth r (.item done) stack) :
    Comes care depth r ([','].intercalate (items.map fun a => (text a).text))
      ((items.mapM f).map fun vs => ⟨stack, .afterItem (vs.reverse ++ done)⟩) := by
  induction items generalizing r done with
  | nil => contradiction
  | cons a rest ih =>
      obtain ⟨first, later⟩ := List.forall_mem_cons.mp each
      have comes := Padded.comes awaits first.opening (first.takes (.item done))
      have comma : Numeral.EndsAt ',' := by simp [Numeral.EndsAt]
      cases value : f a with
      | error problem =>
          rw [value] at comes
          rw [mapM_cons_of_error value]
          cases rest with
          | nil => simpa [Except.map] using comes
          | cons b rest => simpa [List.intercalate_cons_cons, Except.map] using comes.stop comma _
      | ok v =>
          rw [value] at comes
          rw [mapM_cons_of_ok value]
          cases rest with
          | nil => simpa [Except.map, pure, Except.pure, Reader.accept] using comes
          | cons b rest =>
              have separated : Reader.step care depth ⟨stack, Reader.accept v (.item done)⟩ ',' =
                  .ok (.more ⟨.item (v :: done) :: stack, .value⟩) := by
                simp [Reader.step, Reader.accept, Reader.afterPart, isBlank]
              have joined := comes.next comma separated (ih later (List.cons_ne_nil b rest) awaits_value)
              rw [List.map_cons, List.map_cons, List.intercalate_cons_cons, List.append_assoc,
                List.singleton_append]
              cases others : (b :: rest).mapM f with
              | ok vs => simpa [others, Except.map] using joined
              | error problem => simpa [others, Except.map] using joined

/-- A state in which a key may start. -/
structure AwaitsKey (care : Care) (depth : Nat) (r : Reader) (done : List (String × Json))
    (stack : List Frame) : Prop where
  loops : ∀ c, isBlank c → r.step care depth c = .ok (.more r)
  starts : r.step care depth '"' = .ok (.more ⟨stack, .key done (.plain [])⟩)

theorem awaitsKey_firstKey : AwaitsKey care depth ⟨stack, .firstKey⟩ [] stack where
  loops := fun c blank => by simp [Reader.step, blank]
  starts := rfl

theorem awaitsKey_nextKey (done : List (String × Json)) :
    AwaitsKey care depth ⟨stack, .nextKey done⟩ done stack where
  loops := fun c blank => by simp [Reader.step, blank]
  starts := rfl

variable {done : List (String × Json)} {name : Except ReadError String}

theorem comes_key {key : Padded} (awaits : AwaitsKey care depth r done stack)
    (named : BringsQuoted care key.core name) :
    Comes care depth r key.text (name.map fun n => ⟨stack, .colon done n⟩) := by
  obtain ⟨rest, quoted, brings⟩ := named
  rw [Padded.text, quoted]
  refine .after (moves_blank key.blankBefore awaits.loops) ?_
  have opened : Moves (Reader.step care depth) r ['"'] ⟨stack, .key done (.plain [])⟩ :=
    .single awaits.starts
  cases brings with
  | @ends front q s moves ended =>
      have inside : Moves (Reader.step care depth) ⟨stack, .key done (.plain [])⟩ front
          ⟨stack, .key done q⟩ := by
        refine moves.lift (fun q => Reader.mk stack (.key done q)) ?_
        intro p c q takes
        simp [Reader.step, takes, Except.map]
      have closes : Reader.step care depth ⟨stack, .key done q⟩ '"' =
          .ok (.more ⟨stack, .colon done s⟩) := by simp [Reader.step, ended, Except.map]
      have whole := (opened.append inside).append (.single closes)
      refine Comes.blank (.reaches whole fun _ _ => rfl) key.blankAfter ?_
      intro c blank
      simp [Reader.step, blank]
  | @faulty _ problem faults =>
      refine .faulty fun c _ => ?_
      have inside : Faults (Reader.step care depth) ⟨stack, .key done (.plain [])⟩ rest problem := by
        refine faults.lift (fun q => Reader.mk stack (.key done q)) ?_ ?_
        · intro p c q takes
          simp [Reader.step, takes, Except.map]
        · intro p c problem refuses
          simp [Reader.step, refuses, Except.map]
      rw [List.append_assoc]
      exact (Faults.after opened inside).append _

variable {key value : α → Padded} {g : α → Except ReadError String} {f : α → Except ReadError Json}

/-- What a member adds to those before it. -/
def addMember (g : α → Except ReadError String) (f : α → Except ReadError Json)
    (done : List (String × Json)) (a : α) : Except ReadError (List (String × Json)) :=
  (g a).bind fun name => (f a).map fun v => insertMember name v done

theorem comes_member {a : α} (awaits : AwaitsKey care depth r done stack)
    (named : BringsQuoted care (key a).core (g a)) (part : TakesPart care depth stack (value a) (f a)) :
    Comes care depth r ((key a).text ++ ':' :: (value a).text)
      ((addMember g f done a).map fun ms => ⟨stack, .afterMember ms⟩) := by
  have colon : Numeral.EndsAt ':' := by simp [Numeral.EndsAt]
  have comes := comes_key awaits named
  cases name : g a with
  | error problem =>
      rw [name] at comes
      simpa [addMember, name, Except.bind, Except.map] using comes.stop colon (value a).text
  | ok n =>
      rw [name] at comes
      have whole := comes.next colon rfl
        (Padded.comes awaits_value part.opening (part.takes (.member done n)))
      cases outcome : f a with
      | ok v => simpa [addMember, name, outcome, Except.bind, Except.map, Reader.accept] using whole
      | error problem => simpa [addMember, name, outcome, Except.bind, Except.map] using whole

theorem comes_members {members : List α} (keys : ∀ a ∈ members, BringsQuoted care (key a).core (g a))
    (each : ∀ a ∈ members, TakesPart care depth stack (value a) (f a)) (filled : members ≠ [])
    (awaits : AwaitsKey care depth r done stack) :
    Comes care depth r ([','].intercalate (members.map fun a => (key a).text ++ ':' :: (value a).text))
      ((members.foldlM (addMember g f) done).map fun ms => ⟨stack, .afterMember ms⟩) := by
  induction members generalizing r done with
  | nil => contradiction
  | cons a rest ih =>
      obtain ⟨firstKey, laterKeys⟩ := List.forall_mem_cons.mp keys
      obtain ⟨first, later⟩ := List.forall_mem_cons.mp each
      have comes := comes_member awaits firstKey first
      have comma : Numeral.EndsAt ',' := by simp [Numeral.EndsAt]
      rw [List.foldlM_cons]
      cases added : addMember g f done a with
      | error problem =>
          rw [added] at comes
          cases rest with
          | nil => simpa [Except.map, bind, Except.bind] using comes
          | cons b rest =>
              simpa [List.intercalate_cons_cons, Except.map, bind, Except.bind] using comes.stop comma _
      | ok more =>
          rw [added] at comes
          cases rest with
          | nil => simpa [Except.map, bind, Except.bind, pure, Except.pure] using comes
          | cons b rest =>
              have separated : Reader.step care depth ⟨stack, .afterMember more⟩ ',' =
                  .ok (.more ⟨stack, .nextKey more⟩) := by
                simp [Reader.step, Reader.afterPart, isBlank]
              have joined := comes.next comma separated
                (ih laterKeys later (List.cons_ne_nil b rest) (awaitsKey_nextKey more))
              simpa [List.intercalate_cons_cons, bind, Except.bind] using joined

end Parts

section Containers

theorem Takes.enclosed {α : Type} {opening closing : Char} {body : List Char}
    {result : Except ReadError α} {last : α → Reader} {value : α → Json}
    (opens : Reader.step care depth ⟨stack, .value⟩ opening = .ok (.more r))
    (comes : Comes care depth r body (result.map last)) (ends : Numeral.EndsAt closing)
    (closes : ∀ a, (last a).step care depth closing = .ok (Reader.deliver (value a) stack)) :
    Takes care depth stack (opening :: (body ++ [closing])) (result.map value) := by
  cases result with
  | ok a =>
      cases comes with
      | reaches moves like =>
          exact .closed (.cons opens moves) ((like closing ends).trans (closes a))
  | error problem =>
      cases comes with
      | faulty faults => exact .faulty (Faults.after (.single opens) (faults closing ends))

theorem opens_container {opening : Char} (bracket : opening = '[' ∨ opening = '\x7b')
    (room : care = .keep → stack.length < depth) :
    Reader.step care depth ⟨stack, .value⟩ opening =
      .ok (.more ⟨stack, if opening = '[' then .firstItem else .firstKey⟩) := by
  have allowed : ¬ (care = .keep ∧ depth ≤ stack.length) := fun deep =>
    absurd (room deep.1) (Nat.not_lt.mpr deep.2)
  rcases bracket with rfl | rfl <;> simp [Reader.step, Reader.startValue, isBlank, allowed, Except.map]

variable {α : Type} {body : List Char} {f : α → Except ReadError Json}

/-- A container that has room for its parts has room for itself. -/
theorem room_of_room {nesting : Nat} (room : care = .keep → stack.length + (nesting + 1) ≤ depth) :
    (care = .keep → stack.length < depth) ∧
      ∀ frame : Frame, care = .keep → (frame :: stack).length + nesting ≤ depth := by
  constructor
  · intro kept
    have := room kept
    omega
  · intro frame kept
    have := room kept
    rw [List.length_cons]
    omega

theorem takes_array {items : List α} {text : α → Padded}
    (each : ∀ a ∈ items, TakesPart care depth stack (text a) (f a))
    (written : Body (items.map fun a => (text a).text) body)
    (room : care = .keep → stack.length < depth) :
    Takes care depth stack ('[' :: (body ++ [']'])) ((items.mapM f).map .array) := by
  have opens := opens_container (Or.inl rfl) room
  rw [if_pos rfl] at opens
  rcases written with ⟨none, blank⟩ | ⟨filled, rfl⟩
  · rw [List.map_eq_nil_iff.mp none]
    exact .closed (.cons opens (moves_blank blank awaits_firstItem.loops)) rfl
  · have comes := comes_items each (mt List.map_eq_nil_iff.mpr filled) awaits_firstItem
    refine Takes.enclosed opens comes (by simp [Numeral.EndsAt]) ?_
    intro vs
    simp [Reader.step, Reader.afterPart, isBlank]

theorem takes_object {members : List α} {key value : α → Padded} {g : α → Except ReadError String}
    (keys : ∀ a ∈ members, BringsQuoted care (key a).core (g a))
    (each : ∀ a ∈ members, TakesPart care depth stack (value a) (f a))
    (written : Body (members.map fun a => (key a).text ++ ':' :: (value a).text) body)
    (room : care = .keep → stack.length < depth) :
    Takes care depth stack ('\x7b' :: (body ++ ['\x7d']))
      ((members.foldlM (addMember g f) []).map .object) := by
  have opens := opens_container (Or.inr rfl) room
  rw [if_neg (by decide)] at opens
  rcases written with ⟨none, blank⟩ | ⟨filled, rfl⟩
  · rw [List.map_eq_nil_iff.mp none]
    exact .closed (.cons opens (moves_blank blank awaitsKey_firstKey.loops)) rfl
  · have comes := comes_members keys each (mt List.map_eq_nil_iff.mpr filled) awaitsKey_firstKey
    refine Takes.enclosed opens comes (by simp [Numeral.EndsAt]) ?_
    intro ms
    simp [Reader.step, Reader.afterPart, isBlank]

end Containers

section Scalars

theorem takes_word (w : Word) : Takes care depth stack w.letters (.ok w.value) := by
  cases w with
  | null =>
      exact @Takes.closed _ _ _ ['n', 'u', 'l'] 'l' _ _ (.cons rfl (.cons rfl (.cons rfl (.nil _)))) rfl
  | true =>
      exact @Takes.closed _ _ _ ['t', 'r', 'u'] 'e' _ _ (.cons rfl (.cons rfl (.cons rfl (.nil _)))) rfl
  | false =>
      exact @Takes.closed _ _ _ ['f', 'a', 'l', 's'] 'e' _ _
        (.cons rfl (.cons rfl (.cons rfl (.cons rfl (.nil _))))) rfl

theorem takes_quoted {name : Except ReadError String} (named : BringsQuoted care cs name) :
    Takes care depth stack cs (name.map .string) := by
  obtain ⟨rest, rfl, brings⟩ := named
  have opens : Reader.step care depth ⟨stack, .value⟩ '"' = .ok (.more ⟨stack, .quoted (.plain [])⟩) :=
    rfl
  cases brings with
  | @ends front q s moves ended =>
      have inside : Moves (Reader.step care depth) ⟨stack, .quoted (.plain [])⟩ front
          ⟨stack, .quoted q⟩ := by
        refine moves.lift (fun q => Reader.mk stack (.quoted q)) ?_
        intro p c q takes
        simp [Reader.step, takes, Except.map]
      exact .closed (.cons opens inside) (by simp [Reader.step, ended, Except.map])
  | @faulty _ problem faults =>
      have inside : Faults (Reader.step care depth) ⟨stack, .quoted (.plain [])⟩ rest problem := by
        refine faults.lift (fun q => Reader.mk stack (.quoted q)) ?_ ?_
        · intro p c q takes
          simp [Reader.step, takes, Except.map]
        · intro p c problem refuses
          simp [Reader.step, refuses, Except.map]
      exact .faulty (Faults.after (.single opens) inside)

theorem startValue_of_start? {n : Numeral} (opens : Numeral.Opens c)
    (starts : Numeral.start? c = some n) :
    Reader.startValue care depth stack c = .ok ⟨stack, .numeral n⟩ := by
  have word : Word.start? c = none := by
    simp [Word.start?, opens.ne (d := 'n'), opens.ne (d := 't'), opens.ne (d := 'f')]
  simp [Reader.startValue, opens.isBlank, word, starts, opens.ne (d := '"'), opens.ne (d := '['),
    opens.ne (d := '\x7b')]

theorem takes_numeral {first : Char} {rest : List Char} {start n : Numeral}
    (opens : Numeral.Opens first) (starts : Numeral.start? first = some start)
    (moves : Moves Numeral.step start rest n) (complete : n.isComplete) :
    Takes care depth stack (first :: rest) (Reader.numeralValue care n) := by
  have takes : Reader.step care depth ⟨stack, .value⟩ first = .ok (.more ⟨stack, .numeral start⟩) := by
    simp [Reader.step, startValue_of_start? opens starts, Except.map]
  have inside : Moves (Reader.step care depth) ⟨stack, .numeral start⟩ rest ⟨stack, .numeral n⟩ := by
    refine moves.lift (fun n => Reader.mk stack (.numeral n)) ?_
    intro m c n takes
    simp [Reader.step, takes]
  exact .numeral (.cons takes inside) complete

end Scalars

theorem WellFormed.opening {nesting : Nat} (formed : WellFormed nesting cs) : Opening cs := by
  cases formed with
  | word w => cases w <;> exact ⟨_, _, rfl, by decide, by decide⟩
  | numeral is =>
      obtain ⟨first, rest, start, n, spelled, opens, -⟩ := is.moves
      exact ⟨first, rest, spelled, opens.isBlank, opens.ne (by decide) (by decide)⟩
  | quoted is =>
      obtain ⟨rest, -, rfl⟩ := is
      exact ⟨_, _, rfl, by decide, by decide⟩
  | array | object => exact ⟨_, _, rfl, by decide, by decide⟩

/-- What the reader makes of a text of the grammar does not depend on where it stands. -/
theorem WellFormed.takes {nesting : Nat} (formed : WellFormed nesting cs) (care : Care) :
    ∃ outcome, (care = .skip → ∃ v, outcome = .ok v) ∧ ∀ depth stack,
      (care = .keep → stack.length + nesting ≤ depth) → Takes care depth stack cs outcome := by
  -- The outcome is chosen before the stack, so a container can put together those of its parts.
  induction formed with
  | word w => exact ⟨_, fun _ => ⟨_, rfl⟩, fun _ _ _ => takes_word w⟩
  | numeral is =>
      obtain ⟨first, rest, start, n, rfl, opens, starts, moves, complete⟩ := is.moves
      refine ⟨_, ?_, fun _ _ _ => takes_numeral opens starts moves complete⟩
      rintro rfl
      exact ⟨.null, rfl⟩
  | quoted is =>
      obtain ⟨name, whole, brings⟩ := is.brings care
      refine ⟨name.map .string, ?_, fun _ _ _ => takes_quoted brings⟩
      intro skipped
      obtain ⟨s, rfl⟩ := whole skipped
      exact ⟨_, rfl⟩
  | @array nesting items body each written ih =>
      choose! f whole takes using ih
      refine ⟨(items.mapM f).map .array, ?_, fun depth stack room => ?_⟩
      · intro skipped
        obtain ⟨vs, all⟩ := mapM_of_forall_ok fun p member => whole p member skipped
        exact ⟨.array vs, by rw [all]; rfl⟩
      · obtain ⟨here, inside⟩ := room_of_room room
        refine takes_array (fun p member => ⟨(each p member).opening, fun frame => ?_⟩) written here
        exact takes p member depth (frame :: stack) (inside frame)
  | @object nesting members body keys each written ih =>
      choose! g named spelled using fun m member => (keys m member).brings care
      choose! f whole takes using ih
      refine ⟨(members.foldlM (addMember g f) []).map .object, ?_, fun depth stack room => ?_⟩
      · intro skipped
        have added : ∀ done, ∀ m ∈ members, ∃ more, addMember g f done m = .ok more := by
          intro done m member
          obtain ⟨name, first⟩ := named m member skipped
          obtain ⟨v, second⟩ := whole m member skipped
          exact ⟨insertMember name v done, by rw [addMember, first, second]; rfl⟩
        obtain ⟨ms, all⟩ := foldlM_of_forall_ok added []
        exact ⟨.object ms, by rw [all]; rfl⟩
      · obtain ⟨here, inside⟩ := room_of_room room
        refine takes_object spelled (fun m member => ⟨(each m member).opening, fun frame => ?_⟩)
          written here
        exact takes m member depth (frame :: stack) (inside frame)

theorem foldlM_reading (moves : Moves (Reader.step .keep depth) r cs t) :
    cs.foldlM (Document.step depth) (.reading r) = .ok (.reading t) :=
  moves.foldlM Document.reading fun takes => by simp only [Document.step, takes]

/-- A text by itself is read as what the reader makes of it. -/
theorem read_of_takes (takes : Takes .keep greatestDepth [] cs outcome) :
    read (String.ofList cs) = outcome := by
  rw [read, String.toList_ofList, Reader.fresh]
  cases takes with
  | @closed front last r v moves delivers =>
      have done : Document.step greatestDepth (.reading r) last = .ok (.complete v) := by
        simp only [Document.step, delivers, Reader.deliver]
      rw [List.foldlM_append, foldlM_reading moves]
      change ([last].foldlM (Document.step greatestDepth) (.reading r)).bind Document.finish = .ok v
      rw [List.foldlM_cons, done]
      rfl
  | @numeral _ n moves complete =>
      rw [foldlM_reading moves]
      cases value : Reader.numeralValue .keep n <;>
        simp [Except.bind, Document.finish, Reader.finish, complete, value]
  | faulty faults =>
      rw [faults.foldlM Document.reading (fun takes => by simp only [Document.step, takes])
        fun refuses => by simp only [Document.step, refuses]]
      rfl

end Switchboard.Json
