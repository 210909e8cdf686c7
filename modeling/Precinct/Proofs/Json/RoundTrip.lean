import Mathlib
import Precinct.Proofs.Json.Tokens

/-!
# Documents, written and read

* `Writable`           a value that a document can hold: a fraction is kept in a form that is read as it
                       stands;
* `readValue_blanks`, `readItems_blanks`  blanks in front of a value make no difference;
* `Reads`              a value is read from the front of what is written of it, with fuel for it:
                       `Reads.items` and `Reads.members` for the insides of lists and records,
                       `Writable.reads` for every value;
* `ofText?_render`     **what was written is read**, in either layout.

Every item of a list and every member of a record takes one unit of fuel more than the deepest value
after it, and is written with a separator of its own, so twice as much fuel as there are characters is
enough.
-/

namespace Precinct.Json
open Data (Value)

/-- a value that a document can hold -/
inductive Writable : Value → Prop
  | null : Writable .null
  | flag (b : Bool) : Writable (.flag b)
  | whole (n : ℤ) : Writable (.whole n)
  | fraction {literal : String} (read : readPlain literal.toList = some (.fraction literal, [])) :
      Writable (.fraction literal)
  | text (s : String) : Writable (.text s)
  | list {items : List Value} (values : ∀ v ∈ items, Writable v) : Writable (.list items)
  | record {members : List (String × Value)} (values : ∀ m ∈ members, Writable m.2) :
      Writable (.record members)

/-! ## blanks -/

def isBlank (c : Char) : Bool := c == ' ' || c == '\t' || c == '\n' || c == '\r'

section
variable {bs cs : List Char} {c : Char}

theorem skipBlanks_append (h : ∀ c ∈ bs, isBlank c = true) : skipBlanks (bs ++ cs) = skipBlanks cs :=
  List.dropWhile_append_of_pos h

theorem skipBlanks_cons (h : isBlank c = false) : skipBlanks (c :: cs) = c :: cs := by
  show List.dropWhile isBlank (c :: cs) = c :: cs
  rw [List.dropWhile_cons, h]
  rfl

theorem readValue_blanks (h : ∀ c ∈ bs, isBlank c = true) (fuel : ℕ) :
    readValue fuel (bs ++ cs) = readValue fuel cs := by
  cases fuel with
  | zero => rfl
  | succ fuel => rw [readValue, readValue, skipBlanks_append h]

theorem readItems_blanks (h : ∀ c ∈ bs, isBlank c = true) (fuel : ℕ) (before : List Value) :
    readItems fuel before (bs ++ cs) = readItems fuel before cs := by
  cases fuel with
  | zero => rfl
  | succ fuel => rw [readItems, readItems, readValue_blanks h]

theorem readMembers_blanks (h : ∀ c ∈ bs, isBlank c = true) (fuel : ℕ)
    (before : List (String × Value)) :
    readMembers fuel before (bs ++ cs) = readMembers fuel before cs := by
  cases fuel with
  | zero => rfl
  | succ fuel => rw [readMembers, readMembers, skipBlanks_append h]

theorem newline : "\n".toList = ['\n'] := rfl

theorem isBlank_lineBreak (layout : Layout) : ∀ c ∈ layout.lineBreak.toList, isBlank c = true := by
  cases layout with
  | oneLine => exact nofun
  | indented depth =>
    intro c hc
    rw [Layout.lineBreak, String.toList_append, newline, String.toList_ofList] at hc
    rcases List.mem_append.mp hc with hc | hc
    · rw [List.mem_singleton.mp hc]
      rfl
    · rw [List.eq_of_mem_replicate hc]
      rfl

/-- between a name and its value there is a colon, and maybe a blank -/
theorem toList_colon (layout : Layout) : ∃ bs, layout.colon.toList = ':' :: bs ∧
    ∀ c ∈ bs, isBlank c = true := by
  cases layout with
  | oneLine => exact ⟨[], rfl, nofun⟩
  | indented depth =>
    refine ⟨[' '], String.toList_ofList, fun c hc => ?_⟩
    rw [List.mem_singleton.mp hc]
    rfl

/-- no blank is part of a number -/
theorem ends_blanks (h : ∀ c ∈ bs, isBlank c = true) (hcs : Ends cs) : Ends (bs ++ cs) := by
  cases bs with
  | nil => exact hcs
  | cons c bs =>
    refine ends_cons ?_
    have hc := h c List.mem_cons_self
    simp only [isBlank, Bool.or_eq_true, beq_iff_eq] at hc
    rcases hc with ((rfl | rfl) | rfl) | rfl <;> rfl

theorem isBlank_of_isPlainChar (h : isPlainChar c = true) : isBlank c = false := by
  by_contra hblank
  rw [Bool.not_eq_false] at hblank
  have hends : Ends ([c] ++ []) :=
    ends_blanks (fun d hd => List.mem_singleton.mp hd ▸ hblank) ends_nil
  have hnone := hends c rfl
  rw [h] at hnone
  cases hnone

end

/-! ## what is written -/

section
variable {layout : Layout}

attribute [local simp] render renderItems renderMembers renderText

theorem toList_renderText (s : String) :
    (renderText s).toList = '"' :: (s.toList.flatMap escape ++ ['"']) := by
  simp

theorem toList_render_null : (render layout .null).toList = ['n', 'u', 'l', 'l'] := by
  simp

theorem toList_render_true : (render layout (.flag true)).toList = ['t', 'r', 'u', 'e'] := by
  simp

theorem toList_render_false : (render layout (.flag false)).toList = ['f', 'a', 'l', 's', 'e'] := by
  simp

theorem toList_render_whole (n : ℤ) : (render layout (.whole n)).toList = (toString n).toList := by
  simp

theorem toList_render_fraction (literal : String) :
    (render layout (.fraction literal)).toList = literal.toList := by
  simp

theorem toList_render_text (s : String) :
    (render layout (.text s)).toList = '"' :: (s.toList.flatMap escape ++ ['"']) := by
  simp

theorem toList_render_nil : (render layout (.list [])).toList = ['[', ']'] := by
  simp

theorem toList_render_list (v : Value) (rest : List Value) :
    (render layout (.list (v :: rest))).toList =
      '[' :: (layout.deeper.lineBreak.toList ++ ((render layout.deeper v).toList ++
        ((renderItems layout.deeper rest).toList ++ (layout.lineBreak.toList ++ [']'])))) := by
  simp

theorem toList_renderItems_nil : (renderItems layout []).toList = [] := by
  simp

theorem toList_renderItems (v : Value) (rest : List Value) :
    (renderItems layout (v :: rest)).toList =
      ',' :: (layout.lineBreak.toList ++ ((render layout v).toList ++
        (renderItems layout rest).toList)) := by
  simp

theorem toList_render_empty : (render layout (.record [])).toList = ['\x7b', '\x7d'] := by
  simp

/-- how deep a record is makes no difference between a name and its value -/
theorem colon_deeper (layout : Layout) : layout.deeper.colon = layout.colon := by
  cases layout <;> rfl

theorem toList_render_record (name : String) (v : Value) (rest : List (String × Value)) :
    (render layout (.record ((name, v) :: rest))).toList =
      '\x7b' :: (layout.deeper.lineBreak.toList ++ ((renderText name).toList ++
        (layout.deeper.colon.toList ++ ((render layout.deeper v).toList ++
          ((renderMembers layout.deeper rest).toList ++ (layout.lineBreak.toList ++ ['\x7d'])))))) := by
  simp [colon_deeper]

theorem toList_renderMembers_nil : (renderMembers layout []).toList = [] := by
  simp

theorem toList_renderMembers (name : String) (v : Value) (rest : List (String × Value)) :
    (renderMembers layout ((name, v) :: rest)).toList =
      ',' :: (layout.lineBreak.toList ++ ((renderText name).toList ++ (layout.colon.toList ++
        ((render layout v).toList ++ (renderMembers layout rest).toList)))) := by
  simp

end

/-! ## how values begin -/

/-- a number, `true`, `false` or `null` -/
structure PlainText (v : Value) (cs : List Char) : Prop where
  inside : ∀ c ∈ cs, isPlainChar c = true
  value : plain? cs = some v

theorem PlainText.ne_nil {v : Value} {cs : List Char} (h : PlainText v cs) : cs ≠ [] := by
  rintro rfl
  cases h.value

theorem plainText_fraction {literal : String}
    (h : readPlain literal.toList = some (.fraction literal, [])) :
    PlainText (.fraction literal) literal.toList := by
  have hread : (plain? (literal.toList.takeWhile isPlainChar)).map
      (fun v => (v, literal.toList.dropWhile isPlainChar)) = some (.fraction literal, []) := h
  obtain ⟨v, hv, he⟩ := Option.map_eq_some_iff.mp hread
  obtain ⟨rfl, hrest⟩ := Prod.mk.inj he
  have hinside : ∀ c ∈ literal.toList, isPlainChar c = true := List.dropWhile_eq_nil_iff.mp hrest
  rw [List.takeWhile_eq_self_iff.mpr hinside] at hv
  exact ⟨hinside, hv⟩

/-! ## reading what was written -/

/-- a value is read from the front of what is written of it, whatever follows -/
def Reads (v : Value) : Prop :=
  ∀ (layout : Layout) (fuel : ℕ) (rest : List Char), Ends rest →
    2 * (render layout v).toList.length ≤ fuel →
    readValue fuel ((render layout v).toList ++ rest) = some (v, rest)

/-- a value begins with a character that is no blank and does not close a list -/
def Begins (v : Value) : Prop :=
  ∀ layout : Layout, ∃ c cs, (render layout v).toList = c :: cs ∧ isBlank c = false ∧ c ≠ ']'

theorem PlainText.begins {v : Value} (h : ∀ layout, PlainText v (render layout v).toList) :
    Begins v := by
  intro layout
  obtain ⟨c, cs, hcs⟩ := List.exists_cons_of_ne_nil (h layout).ne_nil
  have hc := (h layout).inside c (hcs ▸ List.mem_cons_self)
  refine ⟨c, cs, hcs, isBlank_of_isPlainChar hc, ?_⟩
  rintro rfl
  cases hc

theorem PlainText.reads {v : Value} (h : ∀ layout, PlainText v (render layout v).toList) :
    Reads v := by
  intro layout fuel rest hrest hfuel
  have hread := readPlain_append (h layout).inside hrest
  rw [(h layout).value, Option.map_some] at hread
  obtain ⟨c, cs, hcs⟩ := List.exists_cons_of_ne_nil (h layout).ne_nil
  have hc := (h layout).inside c (hcs ▸ List.mem_cons_self)
  rw [hcs, List.length_cons] at hfuel
  obtain ⟨fuel, rfl⟩ := Nat.exists_eq_add_of_le' (show 1 ≤ fuel by omega)
  rw [hcs, List.cons_append] at hread ⊢
  rw [readValue, skipBlanks_cons (isBlank_of_isPlainChar hc)]
  split
  · rename_i heq
    cases heq
    cases hc
  · rename_i heq
    cases heq
    cases hc
  · rename_i heq
    cases heq
    cases hc
  · exact hread

section
variable {layout : Layout} {fuel : ℕ}

theorem ends_items (outer : Layout) (rest : List Value) (tail : List Char) :
    Ends ((renderItems layout rest).toList ++ (outer.lineBreak.toList ++ ']' :: tail)) := by
  cases rest with
  | nil =>
    rw [toList_renderItems_nil, List.nil_append]
    exact ends_blanks (isBlank_lineBreak outer) (ends_cons rfl)
  | cons v rest =>
    rw [toList_renderItems]
    exact ends_cons rfl

theorem ends_members (outer : Layout) (rest : List (String × Value)) (tail : List Char) :
    Ends ((renderMembers layout rest).toList ++ (outer.lineBreak.toList ++ '\x7d' :: tail)) := by
  cases rest with
  | nil =>
    rw [toList_renderMembers_nil, List.nil_append]
    exact ends_blanks (isBlank_lineBreak outer) (ends_cons rfl)
  | cons m rest =>
    rw [toList_renderMembers]
    exact ends_cons rfl

/-- what is read of a list after an item, the items so far latest first -/
def readAfterItem (fuel : ℕ) (items : List Value) (cs : List Char) : Option (Value × List Char) :=
  match skipBlanks cs with
  | ',' :: rest => readItems fuel items rest
  | ']' :: rest => some (.list items.reverse, rest)
  | _ => none

/-- one item of a list -/
theorem Reads.item {v : Value} (h : Reads v) {before : List Value} {rest : List Char}
    (hrest : Ends rest) (hfuel : 2 * (render layout v).toList.length ≤ fuel) :
    readItems (fuel + 1) before ((render layout v).toList ++ rest) =
      readAfterItem fuel (v :: before) rest := by
  rw [readItems, h layout fuel rest hrest hfuel]
  rfl

/-- **The inside of a list** is read if its values are. -/
theorem Reads.items {v : Value} {rest : List Value} (h : ∀ w ∈ v :: rest, Reads w)
    (before : List Value) (outer : Layout) (tail : List Char)
    (hfuel : 2 * ((render layout v).toList.length + (renderItems layout rest).toList.length) + 1
      ≤ fuel) :
    readItems fuel before ((render layout v).toList ++ ((renderItems layout rest).toList ++
      (outer.lineBreak.toList ++ ']' :: tail))) = some (.list (before.reverse ++ v :: rest), tail) := by
  induction rest generalizing v before fuel with
  | nil =>
    obtain ⟨fuel, rfl⟩ := Nat.exists_eq_add_of_le' (show 1 ≤ fuel by omega)
    rw [(h v List.mem_cons_self).item (ends_items outer [] tail) (by omega), readAfterItem,
      toList_renderItems_nil, List.nil_append, skipBlanks_append (isBlank_lineBreak outer),
      skipBlanks_cons rfl, List.reverse_cons]
    rfl
  | cons w rest ih =>
    obtain ⟨fuel, rfl⟩ := Nat.exists_eq_add_of_le' (show 1 ≤ fuel by omega)
    rw [(h v List.mem_cons_self).item (ends_items outer (w :: rest) tail) (by omega), readAfterItem]
    simp only [toList_renderItems, List.cons_append, List.append_assoc, List.length_cons,
      List.length_append] at hfuel ⊢
    rw [skipBlanks_cons rfl]
    show readItems fuel (v :: before) _ = _
    rw [readItems_blanks (isBlank_lineBreak layout),
      ih (fun u hu => h u (List.mem_cons_of_mem v hu)) _ (by omega), List.reverse_cons,
      List.append_assoc]
    rfl

/-- what is read of a record after a member, the members so far latest first -/
def readAfterMember (fuel : ℕ) (members : List (String × Value)) (cs : List Char) :
    Option (Value × List Char) :=
  match skipBlanks cs with
  | ',' :: rest => readMembers fuel members rest
  | '\x7d' :: rest => some (.record members.reverse, rest)
  | _ => none

/-- one member of a record -/
theorem Reads.member {name : String} {v : Value} (h : Reads v) {before : List (String × Value)}
    {rest : List Char} (hrest : Ends rest) (hfuel : 2 * (render layout v).toList.length ≤ fuel) :
    readMembers (fuel + 1) before ((renderText name).toList ++ (layout.colon.toList ++
      ((render layout v).toList ++ rest))) = readAfterMember fuel ((name, v) :: before) rest := by
  obtain ⟨bs, hcolon, hbs⟩ := toList_colon layout
  rw [readMembers, toList_renderText, List.cons_append, skipBlanks_cons rfl]
  split
  · rename_i heq
    cases heq
    rw [List.append_assoc, List.singleton_append, readText_append]
    dsimp only
    rw [hcolon, List.cons_append, skipBlanks_cons rfl]
    split
    · rename_i heq
      cases heq
      rw [readValue_blanks hbs, h layout fuel rest hrest hfuel]
      rfl
    · rename_i hno
      exact absurd rfl (hno _)
  · rename_i hno
    exact absurd rfl (hno _)

/-- **The inside of a record** is read if its values are. -/
theorem Reads.members {name : String} {v : Value} {rest : List (String × Value)}
    (h : ∀ m ∈ (name, v) :: rest, Reads m.2) (before : List (String × Value)) (outer : Layout)
    (tail : List Char)
    (hfuel : 2 * ((renderText name).toList.length + layout.colon.toList.length +
      (render layout v).toList.length + (renderMembers layout rest).toList.length) + 1 ≤ fuel) :
    readMembers fuel before ((renderText name).toList ++ (layout.colon.toList ++
      ((render layout v).toList ++ ((renderMembers layout rest).toList ++
        (outer.lineBreak.toList ++ '\x7d' :: tail))))) =
      some (.record (before.reverse ++ (name, v) :: rest), tail) := by
  induction rest generalizing name v before fuel with
  | nil =>
    obtain ⟨fuel, rfl⟩ := Nat.exists_eq_add_of_le' (show 1 ≤ fuel by omega)
    have hv : Reads v := h (name, v) List.mem_cons_self
    rw [hv.member (ends_members outer [] tail) (by omega), readAfterMember, toList_renderMembers_nil,
      List.nil_append, skipBlanks_append (isBlank_lineBreak outer), skipBlanks_cons rfl,
      List.reverse_cons]
    rfl
  | cons m rest ih =>
    obtain ⟨name', v'⟩ := m
    obtain ⟨fuel, rfl⟩ := Nat.exists_eq_add_of_le' (show 1 ≤ fuel by omega)
    have hv : Reads v := h (name, v) List.mem_cons_self
    rw [hv.member (ends_members outer _ tail) (by omega), readAfterMember]
    simp only [toList_renderMembers, List.cons_append, List.append_assoc, List.length_cons,
      List.length_append] at hfuel ⊢
    rw [skipBlanks_cons rfl]
    show readMembers fuel ((name, v) :: before) _ = _
    rw [readMembers_blanks (isBlank_lineBreak layout),
      ih (fun u hu => h u (List.mem_cons_of_mem _ hu)) _ (by omega), List.reverse_cons,
      List.append_assoc]
    rfl

end

/-! ## every value -/

section
variable {layout : Layout} {fuel : ℕ}

theorem reads_text (s : String) : Reads (.text s) := by
  intro layout fuel rest _ hfuel
  rw [toList_render_text, List.length_cons] at hfuel
  obtain ⟨fuel, rfl⟩ := Nat.exists_eq_add_of_le' (show 1 ≤ fuel by omega)
  rw [toList_render_text, List.cons_append, readValue, skipBlanks_cons rfl]
  show (readText (s.toList.flatMap escape ++ ['"'] ++ rest)).map (fun x => (Value.text x.1, x.2)) = _
  rw [List.append_assoc, List.singleton_append, readText_append]
  rfl

theorem readValue_list {bs cs : List Char} {c : Char} (hbs : ∀ c ∈ bs, isBlank c = true)
    (hblank : isBlank c = false) (hclose : c ≠ ']') :
    readValue (fuel + 1) ('[' :: (bs ++ c :: cs)) = readItems fuel [] (c :: cs) := by
  rw [readValue, skipBlanks_cons rfl]
  split
  · rename_i heq
    exact absurd (List.cons.inj heq).1 (by decide)
  · rename_i heq
    cases heq
    rw [skipBlanks_append hbs, skipBlanks_cons hblank]
    split
    · rename_i heq
      exact absurd (List.cons.inj heq).1 hclose
    · rfl
  · rename_i heq
    exact absurd (List.cons.inj heq).1 (by decide)
  · rename_i hno _
    exact absurd rfl (hno _)

theorem readValue_record {bs cs : List Char} {c : Char} (hbs : ∀ c ∈ bs, isBlank c = true)
    (hblank : isBlank c = false) (hclose : c ≠ '\x7d') :
    readValue (fuel + 1) ('\x7b' :: (bs ++ c :: cs)) = readMembers fuel [] (c :: cs) := by
  rw [readValue, skipBlanks_cons rfl]
  split
  · rename_i heq
    exact absurd (List.cons.inj heq).1 (by decide)
  · rename_i heq
    exact absurd (List.cons.inj heq).1 (by decide)
  · rename_i heq
    cases heq
    rw [skipBlanks_append hbs, skipBlanks_cons hblank]
    split
    · rename_i heq
      exact absurd (List.cons.inj heq).1 hclose
    · rfl
  · rename_i hno
    exact absurd rfl (hno _)

/-- a list is opened, and its first value is found behind the blanks -/
theorem reads_list {items : List Value} (h : ∀ v ∈ items, Begins v ∧ Reads v) :
    Reads (.list items) := by
  intro layout fuel tail _ hfuel
  cases items with
  | nil =>
    rw [toList_render_nil] at hfuel ⊢
    obtain ⟨fuel, rfl⟩ := Nat.exists_eq_add_of_le' (show 1 ≤ fuel from le_trans (by decide) hfuel)
    rfl
  | cons v rest =>
    rw [toList_render_list] at hfuel ⊢
    simp only [List.length_cons, List.length_append, List.length_nil] at hfuel
    obtain ⟨fuel, rfl⟩ := Nat.exists_eq_add_of_le' (show 1 ≤ fuel by omega)
    simp only [List.cons_append, List.append_assoc, List.nil_append]
    obtain ⟨c, cs, hc, hblank, hclose⟩ := (h v List.mem_cons_self).1 layout.deeper
    have hitems := Reads.items (fun w hw => (h w hw).2) [] layout tail
      (show 2 * ((render layout.deeper v).toList.length +
        (renderItems layout.deeper rest).toList.length) + 1 ≤ fuel by omega)
    rw [hc, List.cons_append] at hitems ⊢
    rw [readValue_list (isBlank_lineBreak layout.deeper) hblank hclose]
    exact hitems

/-- a record is opened, and its first name is found behind the blanks -/
theorem reads_record {members : List (String × Value)} (h : ∀ m ∈ members, Reads m.2) :
    Reads (.record members) := by
  intro layout fuel tail _ hfuel
  cases members with
  | nil =>
    rw [toList_render_empty] at hfuel ⊢
    obtain ⟨fuel, rfl⟩ := Nat.exists_eq_add_of_le' (show 1 ≤ fuel from le_trans (by decide) hfuel)
    rfl
  | cons m rest =>
    obtain ⟨name, v⟩ := m
    rw [toList_render_record] at hfuel ⊢
    simp only [List.length_cons, List.length_append, List.length_nil] at hfuel
    obtain ⟨fuel, rfl⟩ := Nat.exists_eq_add_of_le' (show 1 ≤ fuel by omega)
    simp only [List.cons_append, List.append_assoc, List.nil_append]
    have hmembers := Reads.members h [] layout tail
      (show 2 * ((renderText name).toList.length + layout.deeper.colon.toList.length +
        (render layout.deeper v).toList.length +
        (renderMembers layout.deeper rest).toList.length) + 1 ≤ fuel by omega)
    rw [toList_renderText, List.cons_append] at hmembers ⊢
    rw [readValue_record (isBlank_lineBreak layout.deeper) rfl (by decide)]
    exact hmembers

end

/-- **Every value that a document can hold** is read from the front of what is written of it. -/
theorem Writable.reads {v : Value} (h : Writable v) : Begins v ∧ Reads v := by
  have hplain : ∀ {v : Value}, (∀ layout, PlainText v (render layout v).toList) →
      Begins v ∧ Reads v := fun h => ⟨PlainText.begins h, PlainText.reads h⟩
  induction h with
  | null =>
    refine hplain fun layout => ?_
    rw [toList_render_null]
    exact ⟨List.all_eq_true.mp rfl, rfl⟩
  | flag b =>
    refine hplain fun layout => ?_
    cases b with
    | true =>
      rw [toList_render_true]
      exact ⟨List.all_eq_true.mp rfl, rfl⟩
    | false =>
      rw [toList_render_false]
      exact ⟨List.all_eq_true.mp rfl, rfl⟩
  | whole n =>
    refine hplain fun layout => ?_
    rw [toList_render_whole]
    exact ⟨isPlainChar_toString n, plain?_of_number? (number?_toString n)⟩
  | fraction read =>
    refine hplain fun layout => ?_
    rw [toList_render_fraction]
    exact plainText_fraction read
  | text s => exact ⟨fun layout => ⟨'"', _, toList_render_text s, rfl, by decide⟩, reads_text s⟩
  | @list items values ih =>
    refine ⟨fun layout => ?_, reads_list ih⟩
    cases items with
    | nil => exact ⟨'[', [']'], toList_render_nil, rfl, by decide⟩
    | cons v rest => exact ⟨'[', _, toList_render_list v rest, rfl, by decide⟩
  | @record members values ih =>
    refine ⟨fun layout => ?_, reads_record fun m hm => (ih m hm).2⟩
    rcases members with _ | ⟨⟨name, v⟩, rest⟩
    · exact ⟨'\x7b', ['\x7d'], toList_render_empty, rfl, by decide⟩
    · exact ⟨'\x7b', _, toList_render_record name v rest, rfl, by decide⟩

/-- **What was written is read.** -/
theorem ofText?_render {v : Value} (h : Writable v) (layout : Layout) :
    ofText? (render layout v) = some v := by
  have hread := h.reads.2 layout (2 * (render layout v).toList.length + 2) [] ends_nil (by omega)
  rw [List.append_nil] at hread
  unfold ofText?
  dsimp only
  rw [hread]
  rfl

end Precinct.Json
