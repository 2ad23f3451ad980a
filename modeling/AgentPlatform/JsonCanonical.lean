import AgentPlatform.Json

/-!
# The canonical text determines the document

Hashing a document means hashing its canonical text, so two documents with one
hash are the same only if the text can be read back. It can: strings are
escaped by a prefix-free code, a number ends at the first character that is no
part of one, and everything else is delimited.

`Json.dumps` sorts the keys of an object, and what it keeps is the document up
to the order of its keys. `Json.canon` sorts the keys at every level – two
documents are the same for a program exactly when their sorted forms are
equal – and `Json.canon_eq_of_dumps` reads a sorted document back from its
text.

A number is kept as its literal, which must be one: `Json.WellFormed` says so
for every number of a document. `JsonDoc` is a document with this property, as
a parser returns it.
-/

namespace Json

/-! ## Sorted documents -/

mutual

/-- The document with the keys of all objects sorted. -/
def canon : Json → Json
  | .null => .null
  | .bool b => .bool b
  | .num literal => .num literal
  | .str s => .str s
  | .arr items => .arr (canonItems items)
  | .obj fields => .obj ((canonFields fields).insertionSort (fun a b => a.1 ≤ b.1))

/-- The items of an array, each sorted. -/
def canonItems : List Json → List Json
  | [] => []
  | x :: xs => canon x :: canonItems xs

/-- The fields of an object, their values sorted. -/
def canonFields : List (String × Json) → List (String × Json)
  | [] => []
  | (k, v) :: fs => (k, canon v) :: canonFields fs

end

/-- A character of a number. -/
def isNumberChar (c : Char) : Bool := c.isDigit || c ∈ ['-', '+', '.', 'e', 'E']

/-- The text of a number. -/
def isNumber (literal : String) : Bool :=
  !literal.toList.isEmpty && literal.toList.all isNumberChar

mutual

/-- **Every number of the document is one.** -/
def WellFormed : Json → Prop
  | .num literal => isNumber literal = true
  | .arr items => WellFormedItems items
  | .obj fields => WellFormedFields fields
  | _ => True

/-- The items of an array are well formed. -/
def WellFormedItems : List Json → Prop
  | [] => True
  | x :: xs => WellFormed x ∧ WellFormedItems xs

/-- The values of an object are well formed. -/
def WellFormedFields : List (String × Json) → Prop
  | [] => True
  | (_, v) :: fs => WellFormed v ∧ WellFormedFields fs

end

theorem wellFormedFields_iff {fields : List (String × Json)} :
    WellFormedFields fields ↔ ∀ f ∈ fields, f.2.WellFormed := by
  induction fields with
  | nil => simp [WellFormedFields]
  | cons f fs ih => simp [WellFormedFields, ih]

mutual

/-- Sorting keys keeps a document well formed. -/
theorem WellFormed.canon : ∀ {j : Json}, j.WellFormed → j.canon.WellFormed
  | .null, _ => trivial
  | .bool _, _ => trivial
  | .num _, h => h
  | .str _, _ => trivial
  | .arr _, h => WellFormedItems.canonItems h
  | .obj fields, h => by
    refine wellFormedFields_iff.mpr (fun f hf => ?_)
    rw [List.mem_insertionSort] at hf
    exact wellFormedFields_iff.mp (WellFormedFields.canonFields h) f hf

theorem WellFormedItems.canonItems :
    ∀ {items : List Json}, WellFormedItems items → WellFormedItems (Json.canonItems items)
  | [], _ => trivial
  | _ :: _, h => ⟨WellFormed.canon h.1, WellFormedItems.canonItems h.2⟩

theorem WellFormedFields.canonFields :
    ∀ {fields : List (String × Json)}, WellFormedFields fields →
      WellFormedFields (Json.canonFields fields)
  | [], _ => trivial
  | (_, _) :: _, h => ⟨WellFormed.canon h.1, WellFormedFields.canonFields h.2⟩

end

/-! ## Strings -/

/-- The value of a hexadecimal digit `hexDigit` writes. -/
def digitValue (c : Char) : ℕ := if c.toNat < 58 then c.toNat - 48 else c.toNat - 87

/-- Read one character of a string back. -/
def unescape : List Char → Option (Char × List Char)
  | '\\' :: '"' :: x => some ('"', x)
  | '\\' :: '\\' :: x => some ('\\', x)
  | '\\' :: 'n' :: x => some ('\n', x)
  | '\\' :: 'r' :: x => some ('\r', x)
  | '\\' :: 't' :: x => some ('\t', x)
  | '\\' :: 'b' :: x => some (Char.ofNat 8, x)
  | '\\' :: 'f' :: x => some (Char.ofNat 12, x)
  | '\\' :: 'u' :: '0' :: '0' :: h :: l :: x =>
    some (Char.ofNat (16 * digitValue h + digitValue l), x)
  | c :: x => if c = '"' ∨ c = '\\' then none else some (c, x)
  | [] => none

theorem digitValue_hexDigit {n : ℕ} (h : n < 32) :
    16 * digitValue (hexDigit (n / 16)) + digitValue (hexDigit (n % 16)) = n := by
  have hall : ∀ n : Fin 32,
      16 * digitValue (hexDigit (n.1 / 16)) + digitValue (hexDigit (n.1 % 16)) = n.1 := by
    decide
  exact hall ⟨n, h⟩

/-- **An escaped character is read back**, whatever follows it. -/
theorem unescape_escapeChar (c : Char) (x : List Char) :
    unescape ((escapeChar c).toList ++ x) = some (c, x) := by
  have hback : ∀ n, c.toNat = n → Char.ofNat n = c := by
    intro n hn
    rw [← hn, Char.ofNat_toNat]
  unfold escapeChar
  split
  · rename_i hc
    subst hc
    rfl
  split
  · rename_i hc
    subst hc
    rfl
  split
  · rename_i hc
    subst hc
    rfl
  split
  · rename_i hc
    subst hc
    rfl
  split
  · rename_i hc
    subst hc
    rfl
  split
  · rename_i hc
    show some (Char.ofNat 8, x) = _
    rw [hback 8 hc]
  split
  · rename_i hc
    show some (Char.ofNat 12, x) = _
    rw [hback 12 hc]
  split
  · rename_i hc
    have hdigits : (String.ofList [hexDigit (c.toNat / 16), hexDigit (c.toNat % 16)]).toList
        = [hexDigit (c.toNat / 16), hexDigit (c.toNat % 16)] := String.toList_ofList
    rw [String.toList_append, hdigits]
    show some (Char.ofNat (16 * digitValue (hexDigit (c.toNat / 16))
      + digitValue (hexDigit (c.toNat % 16))), x) = _
    rw [digitValue_hexDigit hc, Char.ofNat_toNat]
  · rename_i hquote hslash _ _ _ _ _ _
    rw [String.toList_ofList]
    show unescape (c :: x) = some (c, x)
    unfold unescape
    split
    all_goals first
      | (rename_i heq; exact absurd (List.cons.inj heq).1 hslash)
      | (rename_i heq; obtain ⟨rfl, rfl⟩ := List.cons.inj heq; simp [hquote, hslash])
      | (rename_i heq; cases heq)

/-- The escaped characters of a string. -/
def escaped (s : List Char) : List Char := s.flatMap (fun c => (escapeChar c).toList)

/-- **A string is read back up to its closing quote.** -/
theorem escaped_inj {s t x y : List Char}
    (h : escaped s ++ '"' :: x = escaped t ++ '"' :: y) : s = t ∧ x = y := by
  have hquote : ∀ z : List Char, unescape ('"' :: z) = none := fun z => rfl
  induction s generalizing t with
  | nil =>
    cases t with
    | nil => exact ⟨rfl, (List.cons.inj h).2⟩
    | cons d t =>
      have hd := unescape_escapeChar d (escaped t ++ '"' :: y)
      rw [← List.append_assoc] at hd
      have heq : '"' :: x = ((escapeChar d).toList ++ escaped t) ++ '"' :: y := h
      rw [← heq, hquote x] at hd
      cases hd
  | cons c s ih =>
    have hc := unescape_escapeChar c (escaped s ++ '"' :: x)
    rw [← List.append_assoc] at hc
    have hleft : ((escapeChar c).toList ++ escaped s) ++ '"' :: x = escaped t ++ '"' :: y := h
    rw [hleft] at hc
    cases t with
    | nil =>
      have hnone : unescape ('"' :: y) = some (c, escaped s ++ '"' :: x) := hc
      rw [hquote y] at hnone
      cases hnone
    | cons d t =>
      have hd := unescape_escapeChar d (escaped t ++ '"' :: y)
      rw [← List.append_assoc] at hd
      have hboth : some (d, escaped t ++ '"' :: y) = some (c, escaped s ++ '"' :: x) :=
        hd.symm.trans hc
      obtain ⟨rfl, hrest⟩ := Prod.mk.inj (Option.some.inj hboth)
      obtain ⟨rfl, rfl⟩ := ih hrest.symm
      exact ⟨rfl, rfl⟩

/-! ## Documents -/

/-- The characters of a string between quotes. -/
def quoted (s : String) : List Char := '"' :: (escaped s.toList ++ ['"'])

mutual

/-- The text of a sorted document, character by character. -/
def render : Json → List Char
  | .null => "null".toList
  | .bool b => if b then "true".toList else "false".toList
  | .num literal => literal.toList
  | .str s => quoted s
  | .arr [] => ['[', ']']
  | .arr (x :: xs) => '[' :: (render x ++ renderItems xs)
  | .obj [] => ['\x7b', '\x7d']
  | .obj ((k, v) :: fs) => '\x7b' :: (quoted k ++ ':' :: (render v ++ renderFields fs))

/-- The further items of an array. -/
def renderItems : List Json → List Char
  | [] => [']']
  | x :: xs => ',' :: (render x ++ renderItems xs)

/-- The further fields of an object. -/
def renderFields : List (String × Json) → List Char
  | [] => ['\x7d']
  | (k, v) :: fs => ',' :: (quoted k ++ ':' :: (render v ++ renderFields fs))

end

theorem toList_quote (s : String) : (quote s).toList = quoted s := by
  unfold quote quoted escaped
  rw [String.toList_append, String.toList_append, String.toList_join, List.flatMap_map]
  rfl

/-- Texts between commas. -/
theorem intercalate_comma (t : List Char) (ts : List (List Char)) :
    [','].intercalate (t :: ts) = t ++ ts.flatMap (fun t => ',' :: t) := by
  induction ts generalizing t with
  | nil => simp
  | cons u ts ih => rw [List.intercalate_cons_cons, ih]; simp

theorem renderItems_eq (xs : List Json) :
    renderItems xs = (xs.map render).flatMap (fun t => ',' :: t) ++ [']'] := by
  induction xs with
  | nil => rfl
  | cons x xs ih => simp [renderItems, ih]

/-- The text of a field. -/
def renderField (f : String × Json) : List Char := quoted f.1 ++ ':' :: render f.2

theorem renderFields_eq (fs : List (String × Json)) :
    renderFields fs = (fs.map renderField).flatMap (fun t => ',' :: t) ++ ['\x7d'] := by
  induction fs with
  | nil => rfl
  | cons f fs ih => simp [renderFields, renderField, ih]

/-- Sorting by keys does not look at the values. -/
theorem map_sort_values {α β : Type} (g : α → β) (fs : List (String × α)) :
    (fs.insertionSort (fun a b => a.1 ≤ b.1)).map (fun f => (f.1, g f.2))
      = (fs.map (fun f => (f.1, g f.2))).insertionSort (fun a b => a.1 ≤ b.1) :=
  List.map_insertionSort _ _ _ fs (fun _ _ _ _ => Iff.rfl)

mutual

/-- **The canonical text is the text of the sorted document.** -/
theorem toList_dumps : ∀ j : Json, (dumps j).toList = render j.canon
  | .null => rfl
  | .bool b => by cases b <;> rfl
  | .num literal => rfl
  | .str s => toList_quote s
  | .arr items => by
    have hitems := toList_dumpsItems items
    show ("[" ++ ",".intercalate (dumpsItems items) ++ "]").toList
      = render (.arr (canonItems items))
    rw [String.toList_append, String.toList_append, String.toList_intercalate, hitems]
    cases canonItems items with
    | nil => rfl
    | cons x xs =>
      show '[' :: [','].intercalate (render x :: xs.map render) ++ [']'] = _
      rw [intercalate_comma, render, renderItems_eq]
      simp
  | .obj fields => by
    have hfields := toList_dumpsFields fields
    -- The two sorted lists of fields have the same texts.
    have hsorted : ((sortFields (dumpsFields fields)).map
          (fun f => quote f.1 ++ ":" ++ f.2)).map String.toList
        = ((canonFields fields).insertionSort (fun a b => a.1 ≤ b.1)).map renderField := by
      have htexts : (sortFields (dumpsFields fields)).map (fun f => (f.1, f.2.toList))
          = ((canonFields fields).insertionSort (fun a b => a.1 ≤ b.1)).map
            (fun f => (f.1, render f.2)) := by
        unfold sortFields
        rw [map_sort_values, map_sort_values, hfields]
      have hjoin := congrArg (List.map (fun f : String × List Char => quoted f.1 ++ ':' :: f.2))
        htexts
      rw [List.map_map, List.map_map] at hjoin
      rw [List.map_map]
      refine Eq.trans ?_ hjoin
      refine List.map_congr_left (fun f _ => ?_)
      show (quote f.1 ++ ":" ++ f.2).toList = quoted f.1 ++ ':' :: f.2.toList
      rw [String.toList_append, String.toList_append, toList_quote, List.append_assoc]
      rfl
    show ("\x7b" ++ ",".intercalate ((sortFields (dumpsFields fields)).map
      (fun f => quote f.1 ++ ":" ++ f.2)) ++ "\x7d").toList
      = render (.obj ((canonFields fields).insertionSort (fun a b => a.1 ≤ b.1)))
    rw [String.toList_append, String.toList_append, String.toList_intercalate, hsorted]
    cases (canonFields fields).insertionSort (fun a b => a.1 ≤ b.1) with
    | nil => rfl
    | cons f fs =>
      show '\x7b' :: [','].intercalate (renderField f :: fs.map renderField) ++ ['\x7d'] = _
      rw [intercalate_comma, render, renderFields_eq]
      simp [renderField]

theorem toList_dumpsItems : ∀ items : List Json,
    (dumpsItems items).map String.toList = (canonItems items).map render
  | [] => rfl
  | x :: xs => by
    show (dumps x).toList :: _ = _
    rw [toList_dumps x, toList_dumpsItems xs]
    rfl

theorem toList_dumpsFields : ∀ fields : List (String × Json),
    (dumpsFields fields).map (fun f => (f.1, f.2.toList))
      = (canonFields fields).map (fun f => (f.1, render f.2))
  | [] => rfl
  | (k, v) :: fs => by
    show (k, (dumps v).toList) :: _ = _
    rw [toList_dumps v, toList_dumpsFields fs]
    rfl

end

/-! ## Reading a document back -/

/-- What follows a value: nothing, or a character that ends it. -/
def Stops (x : List Char) : Prop := ∀ c ∈ x.head?, c = ',' ∨ c = ']' ∨ c = '\x7d'

theorem stops_renderItems (xs : List Json) (x : List Char) : Stops (renderItems xs ++ x) := by
  cases xs <;> simp [Stops, renderItems]

theorem stops_renderFields (fs : List (String × Json)) (x : List Char) :
    Stops (renderFields fs ++ x) := by
  cases fs <;> simp [Stops, renderFields]

/-- A number ends at the first character that is no part of one. -/
theorem number_inj {s t x y : List Char} (hs : s.all isNumberChar = true)
    (ht : t.all isNumberChar = true) (hx : Stops x) (hy : Stops y) (h : s ++ x = t ++ y) :
    s = t ∧ x = y := by
  have hstop : ∀ {z : List Char} {c : Char} {r : List Char}, Stops z → isNumberChar c = true →
      z ≠ c :: r := by
    rintro z c r hz hc rfl
    rcases hz c rfl with rfl | rfl | rfl <;> simp [isNumberChar] at hc
  induction s generalizing t with
  | nil =>
    cases t with
    | nil => exact ⟨rfl, h⟩
    | cons d t => exact absurd h (hstop hx (by simp_all))
  | cons c s ih =>
    cases t with
    | nil => exact absurd h.symm (hstop hy (by simp_all))
    | cons d t =>
      obtain ⟨rfl, hrest⟩ := List.cons.inj h
      obtain ⟨rfl, rfl⟩ := ih (by simp_all) (by simp_all) hrest
      exact ⟨rfl, rfl⟩

theorem quoted_inj {s t : String} {x y : List Char} (h : quoted s ++ x = quoted t ++ y) :
    s = t ∧ x = y := by
  have hinner : escaped s.toList ++ '"' :: x = escaped t.toList ++ '"' :: y := by
    have htail := (List.cons.inj h).2
    simpa using htail
  obtain ⟨hst, hxy⟩ := escaped_inj hinner
  exact ⟨String.toList_inj.mp hst, hxy⟩

/-- What the first character of a value says about it. -/
def firstChar : Json → Char → Prop
  | .null, c => c = 'n'
  | .bool b, c => c = if b then 't' else 'f'
  | .num _, c => isNumberChar c = true
  | .str _, c => c = '"'
  | .arr _, c => c = '['
  | .obj _, c => c = '\x7b'

theorem render_first {j : Json} (h : j.WellFormed) : ∃ c r, render j = c :: r ∧ firstChar j c := by
  cases j with
  | null => exact ⟨'n', _, rfl, rfl⟩
  | bool b => cases b <;> exact ⟨_, _, rfl, rfl⟩
  | str s => exact ⟨'"', _, rfl, rfl⟩
  | arr items => cases items <;> exact ⟨'[', _, rfl, rfl⟩
  | obj fields => rcases fields with _ | ⟨⟨k, v⟩, fs⟩ <;> exact ⟨'\x7b', _, rfl, rfl⟩
  | num literal =>
    have hnum : isNumber literal = true := h
    unfold isNumber at hnum
    cases hl : literal.toList with
    | nil => simp [hl] at hnum
    | cons c r =>
      rw [hl] at hnum
      exact ⟨c, r, hl, by simp_all [firstChar]⟩

/-- The sort of a value. -/
def sort : Json → ℕ
  | .null => 0
  | .bool b => if b then 1 else 2
  | .num _ => 3
  | .str _ => 4
  | .arr _ => 5
  | .obj _ => 6

/-- The first character of a value tells its sort. -/
theorem sort_eq_of_firstChar {a b : Json} {c : Char} (ha : firstChar a c) (hb : firstChar b c) :
    a.sort = b.sort := by
  have hnum : ∀ d ∈ ['n', 't', 'f', '"', '[', '\x7b'], isNumberChar d = false := by
    rw [← List.forall_iff_forall_mem]
    decide
  cases a with
  | bool p => cases p <;> cases b with
    | bool q => cases q <;> simp_all [firstChar, sort]
    | _ => simp_all [firstChar]
  | _ => cases b with
    | bool q => cases q <;> simp_all [firstChar, sort]
    | _ => simp_all [firstChar, sort]

theorem sort_eq_of_render {a b : Json} {x y : List Char} (ha : a.WellFormed) (hb : b.WellFormed)
    (h : render a ++ x = render b ++ y) : a.sort = b.sort := by
  obtain ⟨c, r, hc, hfirst⟩ := render_first ha
  obtain ⟨d, r', hd, hfirst'⟩ := render_first hb
  rw [hc, hd] at h
  obtain rfl : c = d := (List.cons.inj h).1
  exact sort_eq_of_firstChar hfirst hfirst'

/-- A value does not start with a closing bracket. -/
theorem render_ne_close {j : Json} {x y : List Char} (hj : j.WellFormed) :
    render j ++ x ≠ ']' :: y := by
  intro h
  obtain ⟨c, r, hc, hfirst⟩ := render_first hj
  rw [hc] at h
  obtain rfl : c = ']' := (List.cons.inj h).1
  cases j with
  | bool b => cases b <;> simp [firstChar] at hfirst
  | _ => simp [firstChar, isNumberChar] at hfirst

mutual

/-- **A document is read back from its text**, whatever follows it. -/
theorem render_inj : ∀ {a b : Json} {x y : List Char}, a.WellFormed → b.WellFormed → Stops x →
    Stops y → render a ++ x = render b ++ y → a = b ∧ x = y
  | .null, b, x, y, ha, hb, _, _, h => by
    have hsort := sort_eq_of_render ha hb h
    cases b with
    | null => exact ⟨rfl, List.append_cancel_left h⟩
    | bool q => cases q <;> simp [sort] at hsort
    | _ => simp [sort] at hsort
  | .bool p, b, x, y, ha, hb, _, _, h => by
    have hsort := sort_eq_of_render ha hb h
    cases b with
    | bool q =>
      have hpq : p = q := by
        cases p <;> cases q <;> simp [sort] at hsort <;> rfl
      subst hpq
      exact ⟨rfl, List.append_cancel_left h⟩
    | _ => cases p <;> simp [sort] at hsort
  | .num l, b, x, y, ha, hb, hx, hy, h => by
    have hsort := sort_eq_of_render ha hb h
    cases b with
    | num m =>
      have hl : l.toList.all isNumberChar = true := ((Bool.and_eq_true _ _).mp ha).2
      have hm : m.toList.all isNumberChar = true := ((Bool.and_eq_true _ _).mp hb).2
      obtain ⟨hlm, hxy⟩ := number_inj hl hm hx hy h
      exact ⟨by rw [String.toList_inj.mp hlm], hxy⟩
    | bool q => cases q <;> simp [sort] at hsort
    | _ => simp [sort] at hsort
  | .str s, b, x, y, ha, hb, _, _, h => by
    have hsort := sort_eq_of_render ha hb h
    cases b with
    | str t =>
      obtain ⟨rfl, hxy⟩ := quoted_inj h
      exact ⟨rfl, hxy⟩
    | bool q => cases q <;> simp [sort] at hsort
    | _ => simp [sort] at hsort
  | .arr items, b, x, y, ha, hb, _, _, h => by
    have hsort := sort_eq_of_render ha hb h
    cases b with
    | arr items' =>
      cases items with
      | nil =>
        cases items' with
        | nil => exact ⟨rfl, List.append_cancel_left h⟩
        | cons v vs =>
          have htail : render v ++ (renderItems vs ++ y) = ']' :: x := by
            simpa [render] using h.symm
          exact absurd htail (render_ne_close hb.1)
      | cons u us =>
        cases items' with
        | nil =>
          have htail : render u ++ (renderItems us ++ x) = ']' :: y := by
            simpa [render] using h
          exact absurd htail (render_ne_close ha.1)
        | cons v vs =>
          have htail : render u ++ (renderItems us ++ x) = render v ++ (renderItems vs ++ y) := by
            simpa [render] using h
          obtain ⟨rfl, hrest⟩ := render_inj ha.1 hb.1 (stops_renderItems us x)
            (stops_renderItems vs y) htail
          obtain ⟨rfl, rfl⟩ := renderItems_inj ha.2 hb.2 hrest
          exact ⟨rfl, rfl⟩
    | bool q => cases q <;> simp [sort] at hsort
    | _ => simp [sort] at hsort
  | .obj fields, b, x, y, ha, hb, _, _, h => by
    have hsort := sort_eq_of_render ha hb h
    cases b with
    | obj fields' =>
      rcases fields with _ | ⟨⟨k, u⟩, us⟩
      · rcases fields' with _ | ⟨⟨k', v⟩, vs⟩
        · exact ⟨rfl, List.append_cancel_left h⟩
        · simp [render, quoted] at h
      · rcases fields' with _ | ⟨⟨k', v⟩, vs⟩
        · simp [render, quoted] at h
        · have htail : quoted k ++ (':' :: (render u ++ (renderFields us ++ x)))
              = quoted k' ++ (':' :: (render v ++ (renderFields vs ++ y))) := by
            simpa [render] using h
          obtain ⟨rfl, hvalue⟩ := quoted_inj htail
          obtain ⟨rfl, hrest⟩ := render_inj ha.1 hb.1 (stops_renderFields us x)
            (stops_renderFields vs y) (List.cons.inj hvalue).2
          obtain ⟨rfl, rfl⟩ := renderFields_inj ha.2 hb.2 hrest
          exact ⟨rfl, rfl⟩
    | bool q => cases q <;> simp [sort] at hsort
    | _ => simp [sort] at hsort

theorem renderItems_inj : ∀ {us vs : List Json} {x y : List Char}, WellFormedItems us →
    WellFormedItems vs → renderItems us ++ x = renderItems vs ++ y → us = vs ∧ x = y
  | [], [], _, _, _, _, h => ⟨rfl, (List.cons.inj h).2⟩
  | [], _ :: _, _, _, _, _, h => by simp [renderItems] at h
  | _ :: _, [], _, _, _, _, h => by simp [renderItems] at h
  | u :: us, v :: vs, x, y, hu, hv, h => by
    have htail : render u ++ (renderItems us ++ x) = render v ++ (renderItems vs ++ y) := by
      simpa [renderItems] using h
    obtain ⟨rfl, hrest⟩ := render_inj hu.1 hv.1 (stops_renderItems us x)
      (stops_renderItems vs y) htail
    obtain ⟨rfl, rfl⟩ := renderItems_inj hu.2 hv.2 hrest
    exact ⟨rfl, rfl⟩

theorem renderFields_inj : ∀ {us vs : List (String × Json)} {x y : List Char},
    WellFormedFields us → WellFormedFields vs → renderFields us ++ x = renderFields vs ++ y →
      us = vs ∧ x = y
  | [], [], _, _, _, _, h => ⟨rfl, (List.cons.inj h).2⟩
  | [], (_, _) :: _, _, _, _, _, h => by simp [renderFields] at h
  | (_, _) :: _, [], _, _, _, _, h => by simp [renderFields] at h
  | (k, u) :: us, (k', v) :: vs, x, y, hu, hv, h => by
    have htail : quoted k ++ (':' :: (render u ++ (renderFields us ++ x)))
        = quoted k' ++ (':' :: (render v ++ (renderFields vs ++ y))) := by
      simpa [renderFields] using h
    obtain ⟨rfl, hvalue⟩ := quoted_inj htail
    obtain ⟨rfl, hrest⟩ := render_inj hu.1 hv.1 (stops_renderFields us x)
      (stops_renderFields vs y) (List.cons.inj hvalue).2
    obtain ⟨rfl, rfl⟩ := renderFields_inj hu.2 hv.2 hrest
    exact ⟨rfl, rfl⟩

end

/-- **Documents with one canonical text are the same**, up to the order of
their keys. -/
theorem canon_eq_of_dumps {a b : Json} (ha : a.WellFormed) (hb : b.WellFormed)
    (h : a.dumps = b.dumps) : a.canon = b.canon := by
  have htexts : render a.canon ++ [] = render b.canon ++ [] := by
    rw [List.append_nil, List.append_nil, ← toList_dumps, ← toList_dumps, h]
  have hend : Stops [] := fun c hc => by cases hc
  exact (render_inj ha.canon hb.canon hend hend htexts).1

/-- Objects with one canonical text have the same fields. -/
theorem mem_canonFields_of_canon {fs gs : List (String × Json)}
    (h : (Json.obj fs).canon = (Json.obj gs).canon) {f : String × Json}
    (hf : f ∈ canonFields fs) : f ∈ canonFields gs := by
  simp only [canon, Json.obj.injEq] at h
  rw [← List.mem_insertionSort (fun a b : String × Json => a.1 ≤ b.1), h,
    List.mem_insertionSort] at hf
  exact hf

end Json

/-- A document as a parser returns it. -/
abbrev JsonDoc := {j : Json // j.WellFormed}
