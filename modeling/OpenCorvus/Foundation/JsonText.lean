import OpenCorvus.Foundation.Json

/-!
# Reading a JSON text back

A quoted string ends at its first closing quote, and a number at the first comma or bracket: what follows cannot
change how they are read.  So a text determines the value that it is the text of.
-/

namespace Json

open List

open Utf16 (Units ofString isHigh isLow)

variable {units value other rest rest' : Units} {unit : UInt16}

def unhex (digit : UInt16) : ℕ :=
  if digit.toNat < 0x60 then digit.toNat - 0x30 else digit.toNat - 0x57

/-- What a single character after a backslash stands for. -/
def unescape (mark : UInt16) : UInt16 :=
  if mark = 0x62 then 0x08 else if mark = 0x66 then 0x0C else if mark = 0x6E then 0x0A
  else if mark = 0x72 then 0x0D else if mark = 0x74 then 0x09 else mark

/-- The first code unit of a string, and the text behind it. -/
def readUnit : Units → Option (UInt16 × Units)
  | [] => none
  | unit :: units =>
    if unit = 0x5C then
      match units with
      | [] => none
      | mark :: units =>
        if mark = 0x75 then
          some (UInt16.ofNat ((units.take 4).foldl (fun sum digit => sum * 16 + unhex digit) 0), units.drop 4)
        else some (unescape mark, units)
    else some (unit, units)

/-- A text that is read as one unit whatever follows it, and that is no closing quote. -/
def IsToken (unit : UInt16) (token : Units) : Prop :=
  token.head? ≠ some 0x22 ∧ token ≠ [] ∧ ∀ rest, readUnit (token ++ rest) = some (unit, rest)

lemma unhex_hexUnit : ∀ n < 16, unhex (hexUnit n) = n := by
  decide

lemma escapeUnit_eq (unit : UInt16) :
    escapeUnit unit = 0x5C :: 0x75 :: ([12, 8, 4, 0] : List ℕ).map fun shift =>
      hexUnit ((unit.toNat >>> shift) % 16) := by
  have hmark : ofString "\\u" = [0x5C, 0x75] := by decide
  rw [escapeUnit, hmark, cons_append, cons_append, nil_append]

lemma isToken_escapeUnit (unit : UInt16) : IsToken unit (escapeUnit unit) := by
  rw [escapeUnit_eq]
  refine ⟨by simp, by simp, fun rest => ?_⟩
  have hlt : unit.toNat < 65536 := unit.toNat_lt
  have hdigit : ∀ shift, unhex (hexUnit ((unit.toNat >>> shift) % 16)) = (unit.toNat >>> shift) % 16 :=
    fun shift => unhex_hexUnit _ (Nat.mod_lt _ (by decide))
  have hsum : ((((0 * 16 + (unit.toNat >>> 12) % 16) * 16 + (unit.toNat >>> 8) % 16) * 16 +
      (unit.toNat >>> 4) % 16) * 16 + (unit.toNat >>> 0) % 16) = unit.toNat := by
    simp only [Nat.shiftRight_eq_div_pow]
    omega
  simp only [readUnit, map_cons, map_nil, cons_append, nil_append, take_succ_cons,
    take_zero, foldl_cons, foldl_nil, drop_succ_cons, drop_zero, hdigit, hsum, if_true,
    UInt16.ofNat_toNat]

lemma isToken_quoteUnit (unit : UInt16) : IsToken unit (quoteUnit unit) := by
  unfold quoteUnit
  split_ifs with hquote hslash h₁ h₂ h₃ h₄ h₅ hcontrol
  all_goals first
    | exact isToken_escapeUnit unit
    | (subst unit; exact ⟨by decide, by decide, fun rest => rfl⟩)
    | skip
  refine ⟨by simpa using hquote, by simp, fun rest => ?_⟩
  exact if_neg hslash

lemma IsToken.append_inj {unit' : UInt16} {token token' : Units} (h : IsToken unit token)
    (h' : IsToken unit' token') (heq : token ++ rest = token' ++ rest') : unit = unit' ∧ rest = rest' := by
  have hread := h.2.2 rest
  rw [heq, h'.2.2 rest', Option.some.injEq, Prod.mk.injEq] at hread
  exact ⟨hread.1.symm, hread.2.symm⟩

lemma IsToken.append_ne_quote {token : Units} (h : IsToken unit token) : token ++ rest ≠ 0x22 :: rest' := by
  intro heq
  have hhead := congrArg List.head? heq
  rw [head?_append_of_ne_nil _ h.2.1] at hhead
  exact h.1 hhead

inductive Spells : Units → Units → Prop where
  | nil : Spells [] []
  | cons {unit : UInt16} {value token text : Units} (h : IsToken unit token) (hrest : Spells value text) :
      Spells (unit :: value) (token ++ text)

lemma isToken_self (hquote : unit ≠ 0x22) (hslash : unit ≠ 0x5C) : IsToken unit [unit] :=
  ⟨by simpa using hquote, by simp, fun _ => if_neg hslash⟩

lemma isToken_self_of_surrogate (h : isHigh unit = true ∨ isLow unit = true) : IsToken unit [unit] := by
  refine isToken_self ?_ ?_ <;> rintro rfl <;> revert h <;> decide

lemma spells_quoteUnits (value : Units) : Spells value (quoteUnits value) := by
  induction value using quoteUnits.induct with
  | case1 => exact .nil
  | case2 unit h =>
    rw [quoteUnits, if_pos h]
    simpa using Spells.cons (isToken_escapeUnit unit) .nil
  | case3 unit h =>
    rw [quoteUnits, if_neg h]
    simpa using Spells.cons (isToken_quoteUnit unit) .nil
  | case4 _ _ _ hhigh hlow ih =>
    rw [quoteUnits, if_pos hhigh, if_pos hlow]
    exact .cons (isToken_self_of_surrogate (.inl hhigh)) (.cons (isToken_self_of_surrogate (.inr hlow)) ih)
  | case5 unit _ _ hhigh hlow ih =>
    rw [quoteUnits, if_pos hhigh, if_neg hlow]
    exact .cons (isToken_escapeUnit unit) ih
  | case6 unit _ _ hhigh hlow ih =>
    rw [quoteUnits, if_neg hhigh, if_pos hlow]
    exact .cons (isToken_escapeUnit unit) ih
  | case7 unit _ _ hhigh hlow ih =>
    rw [quoteUnits, if_neg hhigh, if_neg hlow]
    exact .cons (isToken_quoteUnit unit) ih

lemma Spells.append_inj {text text' : Units} (h : Spells value text) (h' : Spells other text')
    (heq : text ++ 0x22 :: rest = text' ++ 0x22 :: rest') : value = other ∧ rest = rest' := by
  induction h generalizing other text' with
  | nil =>
    cases h' with
    | nil => exact ⟨rfl, tail_eq_of_cons_eq heq⟩
    | cons htoken =>
      rw [append_assoc] at heq
      exact absurd heq.symm htoken.append_ne_quote
  | cons htoken _ ih =>
    cases h' with
    | nil =>
      rw [append_assoc] at heq
      exact absurd heq htoken.append_ne_quote
    | cons htoken' hrest' =>
      rw [append_assoc, append_assoc] at heq
      obtain ⟨rfl, heq⟩ := htoken.append_inj htoken' heq
      obtain ⟨rfl, hrest⟩ := ih hrest' heq
      exact ⟨rfl, hrest⟩

theorem quote_append_inj (h : quote value ++ rest = quote other ++ rest') : value = other ∧ rest = rest' := by
  have hmark : ofString "\"" = [0x22] := by decide
  simp only [quote, hmark, append_assoc, cons_append] at h
  replace h := tail_eq_of_cons_eq h
  exact (spells_quoteUnits value).append_inj (spells_quoteUnits other) h

/-- A text that does not go on with a number. -/
def Stops (rest : Units) : Prop := ∀ unit ∈ rest.head?, unit ∈ ofString ",]\x7d"

/-- The characters of the texts that `JSON.stringify` writes for numbers. -/
def numberUnits : Units := ofString "0123456789+-.e"

/-- A JSON value of which every object has `Keys`, its numbers by the texts that `JSON.stringify` writes. -/
inductive Valid (Keys : List Units → Prop) : Json → Prop where
  | null : Valid Keys .null
  | bool (value : Bool) : Valid Keys (.bool value)
  | num {text : String} (hne : ofString text ≠ []) (h : ofString text ⊆ numberUnits) : Valid Keys (.num text)
  | str (value : Units) : Valid Keys (.str value)
  | arr {items : List Json} (h : ∀ item ∈ items, Valid Keys item) : Valid Keys (.arr items)
  | obj {fields : List (Units × Json)} (hkeys : Keys (fields.map Prod.fst)) (h : ∀ field ∈ fields, Valid Keys field.2) :
    Valid Keys (.obj fields)

lemma stringifyItems_eq_map (items : List Json) : stringifyItems items = items.map stringify := by
  induction items with
  | nil => rfl
  | cons _ _ ih => rw [stringifyItems, ih, map_cons]

/-- The text of a field of an object. -/
def stringifyField (field : Units × Json) : Units := quote field.1 ++ ofString ":" ++ stringify field.2

lemma stringifyFields_eq_map (fields : List (Units × Json)) : stringifyFields fields = fields.map stringifyField := by
  induction fields with
  | nil => rfl
  | cons _ _ ih => rw [stringifyFields, ih, map_cons, stringifyField]

lemma join_cons (text : Units) (texts : List Units) : join "," (text :: texts) = text ++ texts.flatMap (0x2C :: ·) := by
  induction texts generalizing text with
  | nil => simp [join]
  | cons next _ ih =>
    have hnext := ih next
    rw [join] at hnext ⊢
    rw [intersperse_cons_cons, flatten_cons, flatten_cons, hnext]
    rfl

section

variable {α : Type*} {code : α → Units} {xs ys : List α} {close : UInt16}

lemma flatMap_append_inj (hclose : close ∈ ofString "]\x7d") (hcode : ∀ x ∈ xs, ∀ y ∈ ys, ∀ ⦃rest rest' : Units⦄, Stops rest →
      Stops rest' → code x ++ rest = code y ++ rest' → x = y ∧ rest = rest')
    (h : xs.flatMap (fun x => 0x2C :: code x) ++ close :: rest = ys.flatMap (fun y => 0x2C :: code y) ++ close :: rest') :
    xs = ys ∧ rest = rest' := by
  have hcomma : close ≠ 0x2C := by
    rintro rfl
    exact absurd hclose (by decide)
  have hstops : ∀ (zs : List α) rest, Stops (zs.flatMap (fun z => 0x2C :: code z) ++ close :: rest) := by
    rintro (_ | ⟨z, zs⟩) rest unit hunit
    · obtain rfl := Option.some.inj hunit
      exact mem_cons_of_mem _ hclose
    · obtain rfl := Option.some.inj hunit
      decide
  induction xs generalizing ys with
  | nil =>
    cases ys with
    | nil => exact ⟨rfl, tail_eq_of_cons_eq h⟩
    | cons => exact absurd (head_eq_of_cons_eq h) hcomma
  | cons x xs ih =>
    cases ys with
    | nil => exact absurd (head_eq_of_cons_eq h).symm hcomma
    | cons y ys =>
      simp only [flatMap_cons, cons_append, append_assoc] at h
      obtain ⟨rfl, hnext⟩ := hcode x mem_cons_self y mem_cons_self (hstops xs rest) (hstops ys rest') (tail_eq_of_cons_eq h)
      obtain ⟨rfl, hrest⟩ := ih (fun x hx y hy => hcode x (mem_cons_of_mem _ hx) y (mem_cons_of_mem _ hy)) hnext
      exact ⟨rfl, hrest⟩

/-- A list of texts that are read back one by one, up to the bracket that ends it. -/
lemma join_append_inj (hclose : close ∈ ofString "]\x7d")
    (hopen : ∀ z ∈ xs ++ ys, ∃ unit units, code z = unit :: units ∧ unit ≠ close)
    (hcode : ∀ x ∈ xs, ∀ y ∈ ys, ∀ ⦃rest rest' : Units⦄, Stops rest → Stops rest' →
      code x ++ rest = code y ++ rest' → x = y ∧ rest = rest')
    (h : join "," (xs.map code) ++ close :: rest = join "," (ys.map code) ++ close :: rest') : xs = ys ∧ rest = rest' := by
  have hempty : ∀ z ∈ xs ++ ys, ∀ text rest rest', close :: rest ≠ code z ++ text ++ rest' := by
    intro z hz text rest rest' heq
    obtain ⟨unit, units, hunits, hunit⟩ := hopen z hz
    rw [hunits] at heq
    exact hunit (head_eq_of_cons_eq heq).symm
  rcases xs with _ | ⟨x, xs⟩ <;> rcases ys with _ | ⟨y, ys⟩
  · exact ⟨rfl, tail_eq_of_cons_eq h⟩
  · rw [map_cons, join_cons] at h
    exact absurd h (hempty y mem_cons_self _ _ _)
  · rw [map_cons, join_cons] at h
    exact absurd h.symm (hempty x (mem_append_left _ mem_cons_self) _ _ _)
  · rw [map_cons, map_cons, join_cons, join_cons, flatMap_map, flatMap_map] at h
    exact flatMap_append_inj hclose hcode (congrArg (0x2C :: ·) h)

end

variable {Keys : List Units → Prop} {a b : Json}

/-- The first units of the texts of the values of one kind. -/
def openings (kind : ℕ) : Units :=
  [ofString "n", ofString "tf", numberUnits, ofString "\"", ofString "[", ofString "\x7b"].getD kind []

lemma Valid.exists_opening (h : Valid Keys a) :
    ∃ unit units, stringify a = unit :: units ∧ unit ∈ openings a.ctorIdx ∧ a.ctorIdx < 6 := by
  cases h with
  | null => exact ⟨_, _, rfl, by decide⟩
  | bool value => cases value <;> exact ⟨_, _, rfl, by decide⟩
  | num hne hunits =>
    obtain ⟨unit, units, heq⟩ := exists_cons_of_ne_nil hne
    exact ⟨unit, units, heq, hunits (heq ▸ mem_cons_self), (by decide : 2 < 6)⟩
  | str => exact ⟨_, _, rfl, (by decide : (0x22 : UInt16) ∈ openings 3 ∧ 3 < 6)⟩
  | arr => exact ⟨_, _, rfl, (by decide : (0x5B : UInt16) ∈ openings 4 ∧ 4 < 6)⟩
  | obj => exact ⟨_, _, rfl, (by decide : (0x7B : UInt16) ∈ openings 5 ∧ 5 < 6)⟩

/-- The texts of different kinds of values have different first units. -/
lemma Valid.ctorIdx_eq (ha : Valid Keys a) (hb : Valid Keys b) (h : stringify a ++ rest = stringify b ++ rest') :
    a.ctorIdx = b.ctorIdx := by
  obtain ⟨unit, units, ha, hunit, hkind⟩ := ha.exists_opening
  obtain ⟨unit', units', hb, hunit', hkind'⟩ := hb.exists_opening
  rw [ha, hb] at h
  obtain rfl : unit = unit' := head_eq_of_cons_eq h
  have hdisjoint : ∀ i < 6, ∀ j < 6, (openings i).all fun unit => unit ∉ openings j ∨ i = j := by decide
  have hsame := of_decide_eq_true (all_eq_true.mp (hdisjoint _ hkind _ hkind') unit hunit)
  exact hsame.resolve_left (not_not_intro hunit')

lemma numText_append_inj {text text' : String} (h : ofString text ⊆ numberUnits) (h' : ofString text' ⊆ numberUnits)
    (hrest : Stops rest) (hrest' : Stops rest') (heq : ofString text ++ rest = ofString text' ++ rest') :
    text = text' ∧ rest = rest' := by
  have htake : ∀ {text rest}, ofString text ⊆ numberUnits → Stops rest →
      (ofString text ++ rest).takeWhile (· ∈ numberUnits) = ofString text := by
    intro text rest htext hrest
    rw [takeWhile_append_of_pos fun unit hunit => decide_eq_true (htext hunit)]
    cases rest with
    | nil => simp
    | cons unit =>
      have hstops : (ofString ",]\x7d").all (· ∉ numberUnits) := by decide
      have hstop := of_decide_eq_true (all_eq_true.mp hstops unit (hrest unit rfl))
      simp [hstop]
  have htexts := congrArg (takeWhile (· ∈ numberUnits)) heq
  rw [htake h hrest, htake h' hrest'] at htexts
  obtain rfl := Utf16.ofString_injective htexts
  exact ⟨rfl, append_cancel_left heq⟩

/-- The text of a value is read back as this value, whatever stops it. -/
theorem Valid.stringify_append_inj (ha : Valid Keys a) (hb : Valid Keys b) (hrest : Stops rest) (hrest' : Stops rest')
    (h : stringify a ++ rest = stringify b ++ rest') : a = b ∧ rest = rest' := by
  have hnoClose : ∀ i < 6, 0x5D ∉ openings i := by decide
  induction ha generalizing b rest rest' with
  | null =>
    have hkind := Valid.null.ctorIdx_eq hb h
    cases hb <;> cases hkind
    exact ⟨rfl, append_cancel_left h⟩
  | bool value =>
    have hkind := (Valid.bool value).ctorIdx_eq hb h
    cases hb with
    | bool other =>
      cases value <;> cases other
      · exact ⟨rfl, append_cancel_left h⟩
      · exact absurd (head_eq_of_cons_eq h) (by decide)
      · exact absurd (head_eq_of_cons_eq h) (by decide)
      · exact ⟨rfl, append_cancel_left h⟩
    | _ => cases hkind
  | num hne hunits =>
    have hkind := (Valid.num hne hunits).ctorIdx_eq hb h
    cases hb with
    | num _ hunits' =>
      obtain ⟨rfl, htail⟩ := numText_append_inj hunits hunits' hrest hrest' h
      exact ⟨rfl, htail⟩
    | _ => cases hkind
  | str value =>
    have hkind := (Valid.str value).ctorIdx_eq hb h
    cases hb <;> cases hkind
    obtain ⟨rfl, htail⟩ := quote_append_inj h
    exact ⟨rfl, htail⟩
  | @arr items hitems ih =>
    have hkind := (Valid.arr hitems).ctorIdx_eq hb h
    cases hb with
    | @arr items' hitems' =>
      simp only [stringify, stringifyItems_eq_map, append_assoc] at h
      have hopen : ∀ item ∈ items ++ items', ∃ unit units, stringify item = unit :: units ∧ unit ≠ 0x5D := by
        intro item hitem
        obtain ⟨unit, units, hunits, hunit, hkind⟩ :=
          ((mem_append.mp hitem).elim (hitems item) (hitems' item)).exists_opening
        exact ⟨unit, units, hunits, fun heq => hnoClose _ hkind (heq ▸ hunit)⟩
      obtain ⟨rfl, htail⟩ := join_append_inj (by decide) hopen
        (fun x hx y hy _ _ hrest hrest' heq => ih x hx (hitems' y hy) hrest hrest' heq) (append_cancel_left h)
      exact ⟨rfl, htail⟩
    | _ => cases hkind
  | @obj fields hkeys hfields ih =>
    have hkind := (Valid.obj hkeys hfields).ctorIdx_eq hb h
    cases hb with
    | @obj fields' _ hfields' =>
      simp only [stringify, stringifyFields_eq_map, append_assoc] at h
      have hfield : ∀ x ∈ fields, ∀ y ∈ fields', ∀ ⦃rest rest' : Units⦄, Stops rest → Stops rest' →
          stringifyField x ++ rest = stringifyField y ++ rest' → x = y ∧ rest = rest' := by
        intro x hx y hy rest rest' hrest hrest' heq
        simp only [stringifyField, append_assoc] at heq
        obtain ⟨hkey, heq⟩ := quote_append_inj heq
        obtain ⟨hvalue, htail⟩ := ih x hx (hfields' y hy) hrest hrest' (append_cancel_left heq)
        exact ⟨Prod.ext hkey hvalue, htail⟩
      obtain ⟨rfl, htail⟩ := join_append_inj (by decide) (fun _ _ => ⟨_, _, rfl, by decide⟩) hfield (append_cancel_left h)
      exact ⟨rfl, htail⟩
    | _ => cases hkind

lemma Valid.eq_of_stringify (ha : Valid Keys a) (hb : Valid Keys b) (h : stringify a = stringify b) : a = b := by
  have hstops : Stops [] := nofun
  exact (ha.stringify_append_inj hb hstops hstops (congrArg (· ++ []) h)).1

lemma valid_nat (n : ℕ) : Valid Keys (.nat n) := by
  refine .num (fun h => ?_) fun unit hunit => ?_
  · exact absurd (Utf16.ofString_injective (h.trans (by decide : [] = ofString ""))) (by simp)
  · obtain ⟨c, hc, hunit⟩ := mem_flatMap.mp hunit
    rw [Nat.toString_eq_repr, Nat.toList_repr] at hc
    have hdigit := Nat.isDigit_of_mem_toDigits (by decide) (by decide) hc
    simp only [Char.isDigit, Bool.and_eq_true, decide_eq_true_eq, ge_iff_le, UInt32.le_iff_toNat_le] at hdigit
    have hnumber : ∀ k < 58, 48 ≤ k → (Utf16.encodeChar (Char.ofNat k)).all (· ∈ numberUnits) := by decide
    rw [← Char.ofNat_toNat c] at hunit
    exact of_decide_eq_true (all_eq_true.mp (hnumber _ (Nat.lt_succ_of_le hdigit.2) hdigit.1) unit hunit)

lemma nat_injective : Function.Injective nat := by
  intro n m h
  have hdigits := congrArg String.toList (Json.num.inj h)
  rw [Nat.toString_eq_repr, Nat.toString_eq_repr, Nat.toList_repr, Nat.toList_repr] at hdigits
  have hvalue := congrArg (Nat.ofDigitChars 10 · 0) hdigits
  rwa [Nat.ofDigitChars_toDigits (by decide) (by decide), Nat.ofDigitChars_toDigits (by decide) (by decide)] at hvalue

lemma valid_fields {entries : List (String × Json)} (hkeys : Keys (entries.map fun entry => ofString entry.1))
    (h : ∀ entry ∈ entries, Valid Keys entry.2) : Valid Keys (fields entries) := by
  refine .obj (by simpa [Function.comp_def] using hkeys) fun field hfield => ?_
  obtain ⟨entry, hentry, rfl⟩ := mem_map.mp hfield
  exact h entry hentry

end Json
