import Switchboard.Proofs.Json.Taking

/-! # Values are read back

Where a value may start, the reader takes in what the printer writes for a value, and comes out with
the same value. The containers around it are a stack that the reading of the value does not touch, so
one statement about every stack serves a whole text and each part of a container.
-/

namespace Switchboard.Json

/-- A value without doubles: its integers are words, its objects are in order, and its containers nest
at most `depth` deep. -/
inductive Fits : Nat → Json → Prop
  | null {depth : Nat} : Fits depth .null
  | bool {depth : Nat} (b : Bool) : Fits depth (.bool b)
  | integer {depth : Nat} (i : WordInt) : Fits depth (.number (.exact i))
  | string {depth : Nat} (s : String) : Fits depth (.string s)
  | array {depth : Nat} {items : List Json} (each : ∀ v ∈ items, Fits depth v) :
      Fits (depth + 1) (.array items)
  | object {depth : Nat} {members : List (String × Json)}
      (ascending : members.Pairwise fun m n => m.1 < n.1) (each : ∀ m ∈ members, Fits depth m.2) :
      Fits (depth + 1) (.object members)

variable {depth : Nat} {stack : List Frame} {v : Json}

/-- Every value starts with a character that is neither blank nor the end of an array. -/
theorem Fits.opening (fits : Fits depth v) : Opening (spell v) := by
  cases fits with
  | null => exact ⟨_, _, rfl, by decide, by decide⟩
  | bool b => cases b <;> exact ⟨_, _, rfl, by decide, by decide⟩
  | string s => exact ⟨_, _, rfl, by decide, by decide⟩
  | array | object => exact ⟨_, _, rfl, by decide, by decide⟩
  | integer i =>
      obtain ⟨first, rest, start, n, spelled, opens, -⟩ := reads_spellInt i
      exact ⟨first, rest, spelled, opens.isBlank, opens.ne (by decide) (by decide)⟩

theorem takes_integer (i : WordInt) :
    Takes .keep depth stack (spellInt i.val) (.ok (.number (.exact i))) := by
  obtain ⟨first, rest, start, n, spelled, opens, starts, moves, spells⟩ := reads_spellInt i
  have value : Reader.numeralValue .keep n = .ok (.number (.exact i)) := by
    simp only [Reader.numeralValue, spells.value]
  rw [spelled, ← value]
  exact takes_numeral opens starts moves (Numeral.isComplete_of_isWhole spells.whole)

/-- A printer that puts commas between parts writes the body of a container. -/
theorem body_of_commas {α : Type} {part : α → List Char} {print : List α → List Char}
    (none : print [] = []) (one : ∀ a, print [a] = part a)
    (more : ∀ a b rest, print (a :: b :: rest) = part a ++ ',' :: print (b :: rest)) (parts : List α) :
    Body (parts.map part) (print parts) := by
  cases parts with
  | nil =>
      rw [none]
      exact Or.inl ⟨rfl, blank_nil⟩
  | cons first rest =>
      refine Or.inr ⟨List.cons_ne_nil _ _, ?_⟩
      induction rest generalizing first with
      | nil => rw [one, List.map_singleton, List.intercalate_singleton]
      | cons second rest ih =>
          rw [more, ih second, List.map_cons (l := second :: rest), List.map_cons,
            List.intercalate_cons_cons, List.append_assoc, List.singleton_append]

theorem body_spellItems (items : List Json) :
    Body (items.map fun v => (Padded.bare (spell v)).text) (spellItems items) := by
  refine body_of_commas rfl (fun v => ?_) (fun v w rest => ?_) items <;> simp [spellItems, Padded.text]

theorem body_spellMembers (members : List (String × Json)) :
    Body (members.map fun m => (Padded.bare (quote m.1)).text ++ ':' :: (Padded.bare (spell m.2)).text)
      (spellMembers members) := by
  refine body_of_commas rfl (fun m => ?_) (fun m n rest => ?_) members <;>
    simp [spellMembers, Padded.text]

theorem insertMember_of_forall_lt {key : String} {members : List (String × Json)}
    (below : ∀ m ∈ members, m.1 < key) (v : Json) :
    insertMember key v members = members ++ [(key, v)] := by
  induction members with
  | nil => rfl
  | cons m rest ih =>
      obtain ⟨first, later⟩ := List.forall_mem_cons.mp below
      rw [insertMember, if_neg (lt_asymm first), if_neg (ne_of_gt first), ih later, List.cons_append]

/-- Members that come in ascending order are kept as they come. -/
theorem foldlM_addMember {done members : List (String × Json)}
    (ascending : (done ++ members).Pairwise fun m n => m.1 < n.1) :
    members.foldlM (addMember (fun m => .ok m.1) fun m => .ok m.2) done = .ok (done ++ members) := by
  induction members generalizing done with
  | nil => rw [List.append_nil]; rfl
  | cons m rest ih =>
      have below : ∀ n ∈ done, n.1 < m.1 := fun n member =>
        (List.pairwise_append.mp ascending).2.2 n member m List.mem_cons_self
      have added : addMember (fun m => .ok m.1) (fun m => .ok m.2) done m = .ok (done ++ [m]) := by
        rw [← insertMember_of_forall_lt below m.2]
        rfl
      rw [List.append_cons] at ascending ⊢
      rw [List.foldlM_cons, added]
      exact ih ascending

/-- Between the containers of any stack that leaves room for it, a value is read back. -/
theorem Fits.takes_spell {nesting : Nat} (fits : Fits nesting v) (stack : List Frame)
    (room : stack.length + nesting ≤ depth) : Takes .keep depth stack (spell v) (.ok v) := by
  induction fits generalizing stack with
  | null => exact takes_word .null
  | bool b =>
      cases b with
      | true => exact takes_word .true
      | false => exact takes_word .false
  | integer i => exact takes_integer i
  | string s => exact takes_quoted (bringsQuoted_quote s)
  | @array nesting items each ih =>
      obtain ⟨here, inside⟩ := room_of_room fun _ => room
      have whole : items.mapM (Except.ok : Json → Except ReadError Json) = .ok items :=
        List.mapM_pure.trans (congrArg Except.ok (List.map_id items))
      have parts : ∀ v ∈ items, TakesPart .keep depth stack (.bare (spell v)) (.ok v) := fun v member =>
        ⟨(each v member).opening, fun frame => ih v member (frame :: stack) (inside frame rfl)⟩
      have takes := takes_array parts (body_spellItems items) here
      rwa [whole] at takes
  | @object nesting members ascending each ih =>
      obtain ⟨here, inside⟩ := room_of_room fun _ => room
      have keys : ∀ m ∈ members, BringsQuoted .keep (quote m.1) (.ok m.1) := fun m _ =>
        bringsQuoted_quote m.1
      have parts : ∀ m ∈ members, TakesPart .keep depth stack (.bare (spell m.2)) (.ok m.2) :=
        fun m member =>
          ⟨(each m member).opening, fun frame => ih m member (frame :: stack) (inside frame rfl)⟩
      have takes := takes_object keys parts (body_spellMembers members) here
      have whole : members.foldlM (addMember (fun m => .ok m.1) fun m => .ok m.2) [] = .ok members :=
        foldlM_addMember ascending
      rwa [whole] at takes

end Switchboard.Json
