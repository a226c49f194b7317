import MessageBody.Proofs.JsonStrings
import MessageBody.Proofs.WholeNumbers

/-! # JSON values and their texts

    A value without floating-point numbers is read back from its text, in either
    layout (`parse_text`), as far as the reader accepts its numbers and its depth
    and no object has a key twice.  The proof is an induction on the value; what
    follows a text in the whole is a comma, a bracket or a line break, and none
    of them goes on with a number. -/

namespace MessageBody.Json

/-- A value whose text can be read back. -/
inductive Writable : Json → Prop
  | null : Writable .null
  | bool (b : Bool) : Writable (.bool b)
  | int (n : Int) (h : (Nat.toDigits 10 n.natAbs).length ≤ Text.TooManyDigits.limit) :
      Writable (.int n)
  | str (s : String) : Writable (.str s)
  | arr (items : List Json) (h : ∀ v ∈ items, Writable v) : Writable (.arr items)
  | obj (members : List (String × Json)) (hkeys : (members.map Prod.fst).Nodup)
      (h : ∀ m ∈ members, Writable m.2) : Writable (.obj members)

/-- What may follow the text of a value. -/
inductive EndsValue : List Char → Prop
  | nothing : EndsValue []
  | comma (s : List Char) : EndsValue (',' :: s)
  | bracket (s : List Char) : EndsValue (']' :: s)
  | brace (s : List Char) : EndsValue ('\x7d' :: s)
  | line (s : List Char) : EndsValue ('\n' :: s)

/-! ## Numbers -/

/-- A run of digits ends where the value ends. -/
theorem EndsValue.span_digits {rest : List Char} (h : EndsValue rest) {ds : List Char}
    (hds : ∀ c ∈ ds, c.isDigit) :
    (ds ++ rest).takeWhile isAsciiDigit = ds ∧ (ds ++ rest).dropWhile isAsciiDigit = rest := by
  have hdigits : ∀ c ∈ ds, isAsciiDigit c = true := hds
  have hrest : rest.takeWhile isAsciiDigit = [] ∧ rest.dropWhile isAsciiDigit = rest := by
    cases h <;> exact ⟨rfl, rfl⟩
  rw [List.takeWhile_append_of_pos hdigits, List.dropWhile_append_of_pos hdigits, hrest.1, hrest.2,
    List.append_nil]
  exact ⟨rfl, rfl⟩

/-- The digits of a positive number do not begin with a zero. -/
theorem head?_toDigits_ne {n : Nat} (hn : n ≠ 0) : (Nat.toDigits 10 n).head? ≠ some '0' := by
  induction n using Nat.strongRecOn with
  | ind n ih =>
      by_cases hlt : n < 10
      · have hdigit : ∀ d < 10, d ≠ 0 → Nat.digitChar d ≠ '0' := by decide
        rw [Nat.toDigits_of_lt_base hlt, List.head?_cons]
        exact fun h => hdigit n hlt hn (Option.some.inj h)
      · -- the digits of `n` are those of `n / 10` with one more at the end
        have hhead := ih (n / 10) (by omega) (by omega)
        rw [Nat.toDigits_of_base_le (by decide) (by omega)]
        cases hds : Nat.toDigits 10 (n / 10) with
        | nil => exact absurd hds Nat.toDigits_ne_nil
        | cons d ds =>
            rw [hds] at hhead
            exact hhead

/-- The digits of a number are cut off as they were written: zero is written as
    one digit, and no other number begins with a zero. -/
theorem EndsValue.digitsAt_toDigits {rest : List Char} (h : EndsValue rest) (n : Nat) :
    digitsAt (Nat.toDigits 10 n ++ rest) = (Nat.toDigits 10 n, rest) := by
  obtain ⟨hspan, hdrop⟩ := h.span_digits fun c (hc : c ∈ Nat.toDigits 10 n) =>
    Text.isDigit_of_mem_toDigits hc
  by_cases hn : n = 0
  · subst hn
    rfl
  · have hhead := head?_toDigits_ne hn
    unfold digitsAt
    split
    · rename_i heq
      cases hds : Nat.toDigits 10 n with
      | nil => exact absurd hds Nat.toDigits_ne_nil
      | cons d ds =>
          rw [hds, List.cons_append] at heq
          rw [hds, (List.cons.inj heq).1] at hhead
          exact absurd rfl hhead
    · rw [hspan, hdrop]

/-- The digits of a number are read back as that number. -/
theorem numberAt_toDigits (negative : Bool) {n : Nat} {rest : List Char} (h : EndsValue rest)
    (hlimit : (Nat.toDigits 10 n).length ≤ Text.TooManyDigits.limit) :
    numberAt negative (Nat.toDigits 10 n ++ rest)
      = .ok (.int (Text.signed negative n), rest) := by
  have hvalue : digitsValue (Nat.toDigits 10 n) = n := Text.ofDigits_toDigits n
  have hfew : ¬ Text.TooManyDigits.limit < (Nat.toDigits 10 n).length := by omega
  -- what ends a value begins neither a fraction nor an exponent
  have hfraction : fractionAt? rest = none := by
    cases h <;> rfl
  have hexponent : exponentAt? rest = none := by
    cases h <;> rfl
  have hnonempty : (Nat.toDigits 10 n).isEmpty = false := by
    rw [List.isEmpty_eq_false_iff]
    exact Nat.toDigits_ne_nil
  rw [numberAt]
  simp only [h.digitsAt_toDigits n, hnonempty, hfraction, hexponent, hvalue, hfew, if_false,
    Bool.false_eq_true]

/-- A whole number is written as its digits, behind a sign when it is
    negative. -/
theorem intText_eq (n : Int) :
    intText n = if n < 0 then '-' :: Nat.toDigits 10 n.natAbs else Nat.toDigits 10 n.natAbs :=
  Text.toList_toString_int n

/-- The text of a whole number begins with its sign or with a digit. -/
theorem intText_eq_cons (n : Int) :
    ∃ c s, intText n = c :: s ∧ (c = '-' ∨ c.isDigit) := by
  rw [intText_eq]
  split
  · exact ⟨'-', _, rfl, Or.inl rfl⟩
  · cases hds : Nat.toDigits 10 n.natAbs with
    | nil => exact absurd hds Nat.toDigits_ne_nil
    | cons d ds =>
        exact ⟨d, ds, rfl, Or.inr (Text.isDigit_of_mem_toDigits (hds ▸ List.mem_cons_self ..))⟩

theorem ne_of_isDigit {c d : Char} (hc : c.isDigit) (hd : d.isDigit = false) : c ≠ d := by
  rintro rfl
  rw [hd] at hc
  exact Bool.false_ne_true hc

/-- What begins with a digit is no name. -/
theorem names_of_isDigit {c : Char} (hc : c.isDigit) (s : List Char) :
    names.find? (fun (name, _) => name.isPrefixOf (c :: s)) = none := by
  have hne : ∀ d : Char, d.isDigit = false → (d == c) = false := fun d hd =>
    beq_eq_false_iff_ne.mpr (ne_of_isDigit hc hd).symm
  simp only [names, List.find?_cons, List.isPrefixOf, hne 'n' rfl, hne 't' rfl, hne 'f' rfl,
    hne 'N' rfl, hne 'I' rfl, hne '-' rfl, Bool.false_and, List.find?_nil]

/-- A whole number is read back. -/
theorem scalarAt_intText {n : Int} {rest : List Char} (h : EndsValue rest)
    (hlimit : (Nat.toDigits 10 n.natAbs).length ≤ Text.TooManyDigits.limit) :
    scalarAt (intText n ++ rest) = .ok (.int n, rest) := by
  have hnumber := fun negative => numberAt_toDigits negative h hlimit
  rw [intText_eq]
  cases hds : Nat.toDigits 10 n.natAbs with
  | nil => exact absurd hds Nat.toDigits_ne_nil
  | cons d ds =>
      have hd : d.isDigit := Text.isDigit_of_mem_toDigits (hds ▸ List.mem_cons_self ..)
      have hnames := names_of_isDigit hd (ds ++ rest)
      rw [hds, List.cons_append] at hnumber
      by_cases hn : n < 0
      · have hvalue : Text.signed true n.natAbs = n := by
          simp only [Text.signed, if_true]
          omega
        -- one name begins with a sign, and an `I` comes next in it
        have hnames : names.find? (fun (name, _) => name.isPrefixOf ('-' :: d :: (ds ++ rest)))
            = none := by
          have hname : ('I' == d) = false :=
            beq_eq_false_iff_ne.mpr (ne_of_isDigit hd rfl).symm
          simp only [names, List.find?_cons, List.isPrefixOf, hname, Bool.false_and,
            Bool.and_false]
          rfl
        have hread := hnumber true
        rw [hvalue] at hread
        rw [if_pos hn, List.cons_append, List.cons_append, scalarAt, hnames]
        exact hread
      · have hvalue : Text.signed false n.natAbs = n := by
          simp only [Text.signed, Bool.false_eq_true, if_false]
          omega
        have hread := hnumber false
        rw [hvalue] at hread
        rw [if_neg hn, List.cons_append, scalarAt, hnames]
        · exact hread
        · exact fun s heq => ne_of_isDigit hd rfl (List.cons.inj heq).1
        · exact fun s heq => ne_of_isDigit hd rfl (List.cons.inj heq).1

/-! ## Gaps -/

/-- Skipping blanks stops at a character that is none. -/
theorem skipSpace_of_not {c : Char} (hc : isSpace c = false) (s : List Char) :
    skipSpace (c :: s) = c :: s := by
  rw [skipSpace, List.dropWhile_cons_of_neg (by rw [hc]; exact Bool.false_ne_true)]

/-- Skipping blanks passes over a gap. -/
theorem skipSpace_append {gap : List Char} (hgap : ∀ c ∈ gap, isSpace c = true) (s : List Char) :
    skipSpace (gap ++ s) = skipSpace s := by
  rw [skipSpace, List.dropWhile_append_of_pos hgap]
  rfl

/-- The line breaks of a layout are blanks. -/
theorem isSpace_of_mem_lineBreak {layout : Layout} {level : Nat} {c : Char}
    (h : c ∈ layout.lineBreak level) : isSpace c = true := by
  rw [Layout.lineBreak] at h
  split at h
  · exact nomatch h
  · rcases List.mem_cons.mp h with rfl | h
    · rfl
    · rw [(List.mem_replicate.mp h).2]
      rfl

/-- A separator is a comma and a gap. -/
theorem separator_eq (layout : Layout) (level : Nat) :
    ∃ gap, layout.separator level = ',' :: gap ∧ ∀ c ∈ gap, isSpace c = true := by
  rw [Layout.separator]
  split
  · refine ⟨[' '], rfl, ?_⟩
    intro c hc
    rw [List.mem_singleton.mp hc]
    rfl
  · exact ⟨_, rfl, fun _ => isSpace_of_mem_lineBreak⟩

/-- A value ends before a bracket on its line or on the next. -/
theorem endsValue_lineBreak (layout : Layout) (level : Nat) {rest : List Char}
    (h : EndsValue rest) : EndsValue (layout.lineBreak level ++ rest) := by
  rw [Layout.lineBreak]
  split
  · exact h
  · exact .line _

/-- The text of a value begins with a character that is neither white space nor a
    closing bracket. -/
theorem Writable.textAt_eq_cons {v : Json} (h : Writable v) (layout : Layout) (level : Nat) :
    ∃ c s, textAt layout level v = c :: s ∧ isSpace c = false ∧ c ≠ ']' := by
  cases h with
  | null => exact ⟨'n', _, rfl, rfl, by decide⟩
  | bool b =>
      cases b with
      | true => exact ⟨'t', _, rfl, rfl, by decide⟩
      | false => exact ⟨'f', _, rfl, rfl, by decide⟩
  | int n _ =>
      obtain ⟨c, s, htext, hc⟩ := intText_eq_cons n
      rw [textAt]
      rcases hc with rfl | hc
      · exact ⟨'-', s, htext, rfl, by decide⟩
      · refine ⟨c, s, htext, ?_, ne_of_isDigit hc rfl⟩
        simp only [isSpace, Bool.or_eq_false_iff, beq_eq_false_iff_ne]
        exact ⟨⟨⟨ne_of_isDigit hc rfl, ne_of_isDigit hc rfl⟩, ne_of_isDigit hc rfl⟩,
          ne_of_isDigit hc rfl⟩
  | str s => exact ⟨'\x22', _, rfl, rfl, by decide⟩
  | arr items _ =>
      cases items with
      | nil => exact ⟨'[', _, rfl, rfl, by decide⟩
      | cons item items => exact ⟨'[', _, by rw [textAt]; rfl, rfl, by decide⟩
  | obj members _ _ =>
      cases members with
      | nil => exact ⟨'\x7b', _, rfl, rfl, by decide⟩
      | cons member members => exact ⟨'\x7b', _, by rw [textAt]; rfl, rfl, by decide⟩

/-- The text of a value begins with no blank. -/
theorem Writable.skipSpace_textAt {v : Json} (h : Writable v) (layout : Layout) (level : Nat)
    (rest : List Char) :
    skipSpace (textAt layout level v ++ rest) = textAt layout level v ++ rest := by
  obtain ⟨c, s, htext, hc, -⟩ := h.textAt_eq_cons layout level
  rw [htext, List.cons_append, skipSpace_of_not hc]

/-! ## Values -/

/-- The numbers of items are those of one item after the other. -/
theorem numbersOfItems_eq (items : List Json) : numbersOfItems items = items.flatMap numbers := by
  induction items with
  | nil => rfl
  | cons item items ih => rw [numbersOfItems, ih, List.flatMap_cons]

/-- The numbers of members are those of one value after the other. -/
theorem numbersOfMembers_eq (members : List (String × Json)) :
    numbersOfMembers members = members.flatMap fun m => m.2.numbers := by
  induction members with
  | nil => rfl
  | cons member members ih => rw [numbersOfMembers, ih, List.flatMap_cons]

/-- What can be read back has no number of too many digits. -/
theorem Writable.isShort {v : Json} (h : Writable v) : ∀ n ∈ v.numbers, Text.IsShort n := by
  induction h with
  | null => exact nofun
  | bool b => exact nofun
  | int n h => exact List.forall_mem_singleton.mpr h
  | str s => exact nofun
  | arr items _ ih =>
      intro n hn
      rw [numbers, numbersOfItems_eq] at hn
      obtain ⟨item, hitem, hn⟩ := List.mem_flatMap.mp hn
      exact ih item hitem n hn
  | obj members _ _ ih =>
      intro n hn
      rw [numbers, numbersOfMembers_eq] at hn
      obtain ⟨member, hmember, hn⟩ := List.mem_flatMap.mp hn
      exact ih member hmember n hn

/-- An item is nested no deeper than the list it is in. -/
theorem nesting_le_of_mem {items : List Json} {v : Json} (h : v ∈ items) :
    v.nesting ≤ nestingList items := by
  induction items with
  | nil => exact nomatch h
  | cons item items ih =>
      rw [nestingList]
      rcases List.mem_cons.mp h with rfl | h
      · exact Nat.le_max_left ..
      · exact Nat.le_trans (ih h) (Nat.le_max_right ..)

/-- A member is nested no deeper than the object it is in. -/
theorem nesting_le_of_mem_members {members : List (String × Json)} {m : String × Json}
    (h : m ∈ members) : m.2.nesting ≤ nestingMembers members := by
  induction members with
  | nil => exact nomatch h
  | cons member members ih =>
      rw [nestingMembers]
      rcases List.mem_cons.mp h with rfl | h
      · exact Nat.le_max_left ..
      · exact Nat.le_trans (ih h) (Nat.le_max_right ..)

/-- What begins with no bracket is a scalar. -/
theorem valueAt_scalar {c : Char} (hlist : c ≠ '[') (hobject : c ≠ '\x7b') (fuel depth : Nat)
    (s : List Char) : valueAt (fuel + 1) depth (c :: s) = scalarAt (c :: s) := by
  rw [valueAt]
  · exact fun s heq => hlist (List.cons.inj heq).1
  · exact fun s heq => hobject (List.cons.inj heq).1

/-- A value is read back from its text wherever the text stands, with enough fuel
    and depth. -/
def IsReadBack (layout : Layout) (v : Json) : Prop :=
  ∀ (level fuel : Nat) {depth : Nat} {rest : List Char}, EndsValue rest → v.nesting ≤ depth →
    2 * (textAt layout level v).length ≤ fuel →
    valueAt fuel depth (textAt layout level v ++ rest) = .ok (v, rest)

/-- Items are read back up to the closing bracket. -/
theorem itemsFrom_itemsText {layout : Layout} {item : Json} {items : List Json}
    (hwrite : ∀ v ∈ item :: items, Writable v)
    (hread : ∀ v ∈ item :: items, IsReadBack layout v) {level level' fuel depth : Nat}
    (hdepth : ∀ v ∈ item :: items, v.nesting ≤ depth)
    (hfuel : 2 * ((textAt layout level item).length + (itemsText layout level items).length) < fuel)
    (before : List Json) (rest : List Char) :
    itemsFrom fuel depth before (textAt layout level item ++ (itemsText layout level items
        ++ (layout.lineBreak level' ++ ']' :: rest)))
      = .ok (.arr (before.reverse ++ item :: items), rest) := by
  -- the items read so far are kept in reverse, so `before` grows with each item
  induction items generalizing item before fuel with
  | nil =>
      obtain ⟨fuel, rfl⟩ := Nat.exists_eq_add_one_of_ne_zero (Nat.ne_zero_of_lt hfuel)
      have hitem := hread item (List.mem_cons_self ..) level fuel
        (endsValue_lineBreak layout level' (.bracket rest)) (hdepth item (List.mem_cons_self ..))
        (by omega)
      have hclose : skipSpace (layout.lineBreak level' ++ ']' :: rest) = ']' :: rest := by
        rw [skipSpace_append fun c => isSpace_of_mem_lineBreak, skipSpace_of_not rfl]
      rw [itemsText, List.nil_append, itemsFrom, hitem]
      simp only [hclose, List.reverse_cons]
  | cons next items ih =>
      obtain ⟨fuel, rfl⟩ := Nat.exists_eq_add_one_of_ne_zero (Nat.ne_zero_of_lt hfuel)
      obtain ⟨gap, hseparator, hgap⟩ := separator_eq layout level
      rw [itemsText, hseparator, List.length_append, List.length_append, List.length_cons] at hfuel
      have hitem := hread item (List.mem_cons_self ..) level fuel
        (.comma (gap ++ (textAt layout level next ++ (itemsText layout level items
          ++ (layout.lineBreak level' ++ ']' :: rest)))))
        (hdepth item (List.mem_cons_self ..)) (by omega)
      have hfuel' : 2 * ((textAt layout level next).length
          + (itemsText layout level items).length) < fuel := by omega
      have hnext := ih (fun v hv => hwrite v (List.mem_cons_of_mem _ hv))
        (fun v hv => hread v (List.mem_cons_of_mem _ hv))
        (fun v hv => hdepth v (List.mem_cons_of_mem _ hv)) hfuel' (item :: before)
      have hskip := (hwrite next (List.mem_cons_of_mem _ (List.mem_cons_self ..))).skipSpace_textAt
        layout level (itemsText layout level items ++ (layout.lineBreak level' ++ ']' :: rest))
      rw [itemsText, hseparator, itemsFrom]
      simp only [List.append_assoc, List.cons_append, hitem, skipSpace_of_not
        (show isSpace ',' = false from rfl), skipSpace_append hgap, hskip, hnext,
        List.reverse_cons, List.nil_append]

/-- A key is read back with its colon and the gap behind it. -/
theorem keyAt_stringText (layout : Layout) (key : String) (s : List Char) :
    keyAt (stringText layout.ascii key.toList ++ ':' :: ' ' :: s) = .ok (key, skipSpace s) := by
  have hstring := stringAt?_stringText layout.ascii key (':' :: ' ' :: s)
  rw [stringText, List.cons_append, List.cons_append, List.append_assoc, List.singleton_append,
    keyAt]
  simp only [hstring, skipSpace_of_not (show isSpace ':' = false from rfl)]
  rfl

/-- A member with a new key comes last. -/
theorem setMember_of_not_mem {key : String} {members : List (String × Json)}
    (h : key ∉ members.map Prod.fst) (value : Json) :
    setMember key value members = members ++ [(key, value)] := by
  induction members with
  | nil => rfl
  | cons member members ih =>
      rw [List.map_cons, List.mem_cons, not_or] at h
      rw [setMember, if_neg (Ne.symm h.1), ih h.2, List.cons_append]

/-- A member with a key of its own comes to stand behind the others. -/
theorem setMember_of_nodup {key : String} {value : Json} {before members : List (String × Json)}
    (hkeys : ((before ++ (key, value) :: members).map Prod.fst).Nodup) :
    setMember key value before = before ++ [(key, value)] := by
  rw [List.map_append, List.nodup_append] at hkeys
  exact setMember_of_not_mem (fun h => hkeys.2.2 key h key (List.mem_cons_self ..) rfl) value

/-- Members are read back up to the closing bracket. -/
theorem membersFrom_membersText {layout : Layout} {key : String} {value : Json}
    {members : List (String × Json)} (hwrite : ∀ m ∈ (key, value) :: members, Writable m.2)
    (hread : ∀ m ∈ (key, value) :: members, IsReadBack layout m.2) {level level' fuel depth : Nat}
    (hdepth : ∀ m ∈ (key, value) :: members, m.2.nesting ≤ depth)
    (hfuel : 2 * ((textAt layout level value).length + (membersText layout level members).length)
      < fuel)
    {before : List (String × Json)}
    (hkeys : ((before ++ (key, value) :: members).map Prod.fst).Nodup) (rest : List Char) :
    membersFrom fuel depth before (stringText layout.ascii key.toList ++ ':' :: ' '
        :: (textAt layout level value ++ (membersText layout level members
          ++ (layout.lineBreak level' ++ '\x7d' :: rest))))
      = .ok (.obj (before ++ (key, value) :: members), rest) := by
  -- a member replaces one of the same key, which no key met so far is
  induction members generalizing key value before fuel with
  | nil =>
      obtain ⟨fuel, rfl⟩ := Nat.exists_eq_add_one_of_ne_zero (Nat.ne_zero_of_lt hfuel)
      have hvalue := hread (key, value) (List.mem_cons_self ..) level fuel
        (endsValue_lineBreak layout level' (.brace rest)) (hdepth _ (List.mem_cons_self ..))
        (by simp only; omega)
      have hskip := (hwrite (key, value) (List.mem_cons_self ..)).skipSpace_textAt
        layout level (layout.lineBreak level' ++ '\x7d' :: rest)
      have hclose : skipSpace (layout.lineBreak level' ++ '\x7d' :: rest) = '\x7d' :: rest := by
        rw [skipSpace_append fun c => isSpace_of_mem_lineBreak, skipSpace_of_not rfl]
      rw [membersText, List.nil_append, membersFrom, keyAt_stringText]
      simp only [hskip, hvalue, hclose, setMember_of_nodup hkeys]
  | cons next members ih =>
      obtain ⟨nextKey, nextValue⟩ := next
      obtain ⟨fuel, rfl⟩ := Nat.exists_eq_add_one_of_ne_zero (Nat.ne_zero_of_lt hfuel)
      obtain ⟨gap, hseparator, hgap⟩ := separator_eq layout level
      rw [membersText, hseparator, List.length_append, List.length_append, List.length_append,
        List.length_cons, List.length_cons, List.length_cons] at hfuel
      have hfuel' : 2 * ((textAt layout level nextValue).length
          + (membersText layout level members).length) < fuel := by omega
      have hkeys' : ((before ++ [(key, value)] ++ (nextKey, nextValue) :: members).map
          Prod.fst).Nodup := by
        rw [List.append_assoc, List.singleton_append]
        exact hkeys
      have hnext := ih (fun m hm => hwrite m (List.mem_cons_of_mem _ hm))
        (fun m hm => hread m (List.mem_cons_of_mem _ hm))
        (fun m hm => hdepth m (List.mem_cons_of_mem _ hm)) hfuel' hkeys'
      have hgapKey : ∀ s, skipSpace (stringText layout.ascii nextKey.toList ++ s)
          = stringText layout.ascii nextKey.toList ++ s := fun s => skipSpace_of_not rfl _
      rw [membersText, hseparator]
      generalize htail : textAt layout level nextValue ++ (membersText layout level members
        ++ (layout.lineBreak level' ++ '\x7d' :: rest)) = tail at hnext
      have hvalue := hread (key, value) (List.mem_cons_self ..) level fuel
        (.comma (gap ++ (stringText layout.ascii nextKey.toList ++ ':' :: ' ' :: tail)))
        (hdepth _ (List.mem_cons_self ..)) (by simp only; omega)
      have hskip := (hwrite (key, value) (List.mem_cons_self ..)).skipSpace_textAt layout level
        (',' :: (gap ++ (stringText layout.ascii nextKey.toList ++ ':' :: ' ' :: tail)))
      rw [membersFrom, keyAt_stringText]
      simp only [List.append_assoc, List.cons_append, htail, hskip, hvalue, skipSpace_of_not
        (show isSpace ',' = false from rfl), skipSpace_append hgap, hgapKey,
        setMember_of_nodup hkeys, hnext, List.nil_append]

/-- The text of a value is not empty, so there is fuel to read it. -/
theorem Writable.isReadBack_of {v : Json} (h : Writable v) {layout : Layout}
    (hread : ∀ (level fuel : Nat) {depth : Nat} {rest : List Char}, EndsValue rest →
      v.nesting ≤ depth → 2 * (textAt layout level v).length ≤ fuel + 1 →
      valueAt (fuel + 1) depth (textAt layout level v ++ rest) = .ok (v, rest)) :
    IsReadBack layout v := by
  intro level fuel depth rest hrest hdepth hfuel
  obtain ⟨c, s, htext, -, -⟩ := h.textAt_eq_cons layout level
  have hpos : fuel ≠ 0 := by
    rw [htext, List.length_cons] at hfuel
    omega
  obtain ⟨fuel, rfl⟩ := Nat.exists_eq_add_one_of_ne_zero hpos
  exact hread level fuel hrest hdepth hfuel

/-- A list is read back when its items are. -/
theorem isReadBack_arr {layout : Layout} {items : List Json} (hwrite : ∀ v ∈ items, Writable v)
    (hread : ∀ v ∈ items, IsReadBack layout v) : IsReadBack layout (.arr items) := by
  refine (Writable.arr items hwrite).isReadBack_of ?_
  intro level fuel depth rest _ hdepth hfuel
  rw [nesting] at hdepth
  obtain ⟨depth, rfl⟩ := Nat.exists_eq_add_one_of_ne_zero
    (Nat.ne_zero_of_lt (Nat.lt_of_succ_le hdepth))
  cases items with
  | nil => rfl
  | cons item items =>
      rw [textAt] at hfuel ⊢
      simp only [List.length_append, List.length_cons] at hfuel
      have hfuel' : 2 * ((textAt layout (level + 1) item).length
          + (itemsText layout (level + 1) items).length) < fuel := by omega
      have hitems := @itemsFrom_itemsText layout item items hwrite hread (level + 1) level fuel
        depth (fun v hv => Nat.le_trans (nesting_le_of_mem hv) (Nat.le_of_succ_le_succ hdepth))
        hfuel' [] rest
      have hopen := (hwrite item (List.mem_cons_self ..)).skipSpace_textAt layout (level + 1)
        (itemsText layout (level + 1) items ++ (layout.lineBreak level ++ ']' :: rest))
      obtain ⟨c, s, htext, -, hc⟩ := (hwrite item (List.mem_cons_self ..)).textAt_eq_cons layout
        (level + 1)
      -- a closing bracket right behind the opening one would make the list empty
      rw [htext, List.cons_append] at hopen hitems
      simp only [List.append_assoc, List.cons_append, List.nil_append]
      rw [valueAt, skipSpace_append fun c => isSpace_of_mem_lineBreak, htext, List.cons_append,
        hopen]
      split
      · rename_i heq
        exact absurd (List.cons.inj heq).1 hc
      · exact hitems

/-- An object is read back when its members are. -/
theorem isReadBack_obj {layout : Layout} {members : List (String × Json)}
    (hkeys : (members.map Prod.fst).Nodup) (hwrite : ∀ m ∈ members, Writable m.2)
    (hread : ∀ m ∈ members, IsReadBack layout m.2) : IsReadBack layout (.obj members) := by
  refine (Writable.obj members hkeys hwrite).isReadBack_of ?_
  intro level fuel depth rest _ hdepth hfuel
  rw [nesting] at hdepth
  obtain ⟨depth, rfl⟩ := Nat.exists_eq_add_one_of_ne_zero
    (Nat.ne_zero_of_lt (Nat.lt_of_succ_le hdepth))
  cases members with
  | nil => rfl
  | cons member members =>
      obtain ⟨key, value⟩ := member
      rw [textAt] at hfuel ⊢
      simp only [List.length_append, List.length_cons] at hfuel
      -- the key and the brackets have a length too, so the fuel is more than the members need
      have hfuel' : 2 * ((textAt layout (level + 1) value).length
          + (membersText layout (level + 1) members).length) < fuel := by omega
      have hmembers := @membersFrom_membersText layout key value members hwrite hread (level + 1)
        level fuel depth (fun m hm => Nat.le_trans (nesting_le_of_mem_members hm)
          (Nat.le_of_succ_le_succ hdepth)) hfuel' [] hkeys rest
      have hopen : ∀ s, skipSpace (stringText layout.ascii key.toList ++ s)
          = stringText layout.ascii key.toList ++ s := fun s => skipSpace_of_not rfl _
      simp only [List.append_assoc, List.cons_append, List.nil_append]
      rw [valueAt, skipSpace_append fun c => isSpace_of_mem_lineBreak, hopen]
      exact hmembers

/-- A value is read back wherever it stands. -/
theorem Writable.isReadBack {v : Json} (h : Writable v) (layout : Layout) :
    IsReadBack layout v := by
  induction h with
  | null =>
      refine Writable.null.isReadBack_of ?_
      intro level fuel depth rest _ _ _
      rfl
  | bool b =>
      refine (Writable.bool b).isReadBack_of ?_
      intro level fuel depth rest _ _ _
      cases b with
      | true => rfl
      | false => rfl
  | int n hlimit =>
      refine (Writable.int n hlimit).isReadBack_of ?_
      intro level fuel depth rest hrest _ _
      obtain ⟨c, s, htext, hc⟩ := intText_eq_cons n
      have hscalar : c ≠ '[' ∧ c ≠ '\x7b' := by
        rcases hc with rfl | hc
        · exact ⟨by decide, by decide⟩
        · exact ⟨ne_of_isDigit hc rfl, ne_of_isDigit hc rfl⟩
      have hread := scalarAt_intText hrest hlimit
      rw [textAt]
      rw [htext, List.cons_append] at hread ⊢
      rw [valueAt_scalar hscalar.1 hscalar.2]
      exact hread
  | str s =>
      refine (Writable.str s).isReadBack_of ?_
      intro level fuel depth rest _ _ _
      have hstring := stringAt?_stringText layout.ascii s rest
      rw [textAt, stringText, List.cons_append, List.cons_append, List.append_assoc,
        List.singleton_append, valueAt_scalar (by decide) (by decide), scalarAt]
      have hnames : ∀ s, names.find? (fun (name, _) => name.isPrefixOf ('\x22' :: s)) = none :=
        fun _ => rfl
      rw [hnames]
      simp only [hstring]
  | arr items hitems ih => exact isReadBack_arr hitems ih
  | obj members hkeys hmembers ih => exact isReadBack_obj hkeys hmembers ih

/-- **A value is read back from its text**, on one line or on many, in ASCII or
    not. -/
theorem parse_text (layout : Layout) {v : Json} (h : Writable v) (hdepth : v.nesting ≤ depthLimit) :
    parse (v.text layout) = .ok v := by
  have hread := h.isReadBack layout 0 (2 * (v.text layout).length + 2) .nothing hdepth
    (Nat.le_add_right ..)
  have hskip := h.skipSpace_textAt layout 0 []
  rw [List.append_nil] at hread hskip
  rw [parse, text, hskip]
  rw [text] at hread
  rw [hread]
  rfl

end MessageBody.Json
