import AgentUplink.Lib.Decimal
import AgentUplink.Protocol.RotationControl

/-!
# JSON values and their compact text

Control messages are JSON objects, written without white space. Object members
keep the order of the record they were made from. Strings are escaped as in the
text a fence snapshot is hashed over.
-/

namespace AgentUplink

open FenceSnapshot List Decimal

inductive Json where
  | null
  | bool (value : Bool)
  | number (text : String)
  | string (value : String)
  | array (items : List Json)
  | object (members : List (String × Json))

namespace Json

mutual

def render : Json → String
  | null => "null"
  | bool value => if value then "true" else "false"
  | number text => text
  | string value => jsonString value
  | array items => "[" ++ String.intercalate "," (renderItems items) ++ "]"
  | object members => "\x7b" ++ String.intercalate "," (renderMembers members) ++ "\x7d"

def renderItems : List Json → List String
  | [] => []
  | item :: items => render item :: renderItems items

def renderMembers : List (String × Json) → List String
  | [] => []
  | (key, value) :: members => (jsonString key ++ ":" ++ render value) :: renderMembers members

end

def counter (n : Nat) : Json := .string (toString n)

/-! ## Widths

The number of bytes of a text, from the widths of its parts. -/

def width (j : Json) : Nat := j.render.utf8ByteSize

def escaped (c : Char) : Bool := c = '"' || c = '\\'

/-- The bytes between the quotation marks of a string without control characters: quotation
marks and backslashes take two. -/
def textBytes (s : String) : Nat := s.utf8ByteSize + s.toList.countP escaped

/-- Each key with its colon and the comma before it. -/
def keysWidth (keys : List String) : Nat :=
  (keys.map fun key => (jsonString key).utf8ByteSize + 2).sum

def membersWidth (members : List (String × Json)) : Nat :=
  keysWidth (members.map Prod.fst) + (members.map fun m => m.2.width).sum

theorem renderItems_eq (items : List Json) : renderItems items = items.map render := by
  induction items with
  | nil => rfl
  | cons item items ih => simp [renderItems, ih]

theorem renderMembers_eq (members : List (String × Json)) :
    renderMembers members = members.map fun m => jsonString m.1 ++ ":" ++ m.2.render := by
  induction members with
  | nil => rfl
  | cons member members ih => simp [renderMembers, ih]

/-- A comma stands after every part but the last. -/
theorem intercalate_width (parts : List String) :
    (String.intercalate "," parts).utf8ByteSize =
      (parts.map fun part => part.utf8ByteSize + 1).sum - 1 := by
  induction parts with
  | nil => rfl
  | cons part parts ih =>
    cases parts with
    | nil => rfl
    | cons next parts =>
      rw [String.intercalate_cons_cons, String.utf8ByteSize_append, String.utf8ByteSize_append, ih,
        show ",".utf8ByteSize = 1 from rfl]
      simp only [map_cons, sum_cons]
      omega

theorem width_array (items : List Json) :
    (array items).width = (items.map fun item => item.width + 1).sum - 1 + 2 := by
  unfold width
  rw [render, String.utf8ByteSize_append, String.utf8ByteSize_append, intercalate_width,
    renderItems_eq, List.map_map, show "[".utf8ByteSize = 1 from rfl,
    show "]".utf8ByteSize = 1 from rfl, add_right_comm, add_comm]
  rfl

/-- Items of a part each and the same rest. -/
theorem width_array_map {α : Type} {part : α → Json} {size : α → Nat} {n : Nat}
    (h : ∀ a, (part a).width = size a + n) (items : List α) :
    (array (items.map part)).width =
      (items.map size).sum + ((n + 1) * items.length - 1) + 2 := by
  have hsum : ((items.map part).map fun item => item.width + 1).sum =
      (items.map size).sum + (n + 1) * items.length := by
    induction items with
    | nil => rfl
    | cons a items ih =>
      rw [map_cons, map_cons, sum_cons, ih, h, map_cons, sum_cons, length_cons, Nat.mul_succ]
      omega
  rw [width_array, hsum]
  cases items with
  | nil => rfl
  | cons a items =>
    rw [length_cons, Nat.mul_succ]
    omega

theorem membersWidth_append (first second : List (String × Json)) :
    membersWidth (first ++ second) = membersWidth first + membersWidth second := by
  unfold membersWidth keysWidth
  simp only [map_append, sum_append]
  omega

theorem width_object (members : List (String × Json)) :
    (object members).width = membersWidth members - 1 + 2 := by
  have hparts : ((renderMembers members).map fun part => part.utf8ByteSize + 1).sum =
      membersWidth members := by
    unfold membersWidth keysWidth
    rw [renderMembers_eq, map_map, map_map, ← sum_map_add]
    refine congrArg sum (map_congr_left fun m _ => ?_)
    show (jsonString m.1 ++ ":" ++ m.2.render).utf8ByteSize + 1 =
      (jsonString m.1).utf8ByteSize + 2 + m.2.render.utf8ByteSize
    rw [String.utf8ByteSize_append, String.utf8ByteSize_append, show ":".utf8ByteSize = 1 from rfl]
    omega
  unfold width
  rw [render, String.utf8ByteSize_append, String.utf8ByteSize_append, intercalate_width, hparts,
    show "\x7b".utf8ByteSize = 1 from rfl, show "\x7d".utf8ByteSize = 1 from rfl]
  omega

theorem utf8ByteSize_ofList (cs : List Char) :
    (String.ofList cs).utf8ByteSize = (cs.map Char.utf8Size).sum := by
  induction cs with
  | nil => rfl
  | cons c cs ih =>
    rw [String.ofList_cons, String.utf8ByteSize_append, String.utf8ByteSize_singleton, ih]
    rfl

theorem utf8ByteSize_eq (s : String) : s.utf8ByteSize = (s.toList.map Char.utf8Size).sum := by
  rw [← utf8ByteSize_ofList, String.ofList_toList]

theorem utf8ByteSize_join (parts : List String) :
    (String.join parts).utf8ByteSize = (parts.map String.utf8ByteSize).sum := by
  induction parts with
  | nil => rfl
  | cons part parts ih =>
    rw [String.join_cons, String.utf8ByteSize_append, ih]
    rfl

variable {c : Char} {s : String}

/-- Outside the control characters only the quotation mark and the backslash are escaped. -/
theorem jsonChar_width (h : isControl c = false) :
    (jsonChar c).utf8ByteSize = c.utf8Size + if escaped c then 1 else 0 := by
  have hlow : ¬ c.val < 0x20 := by
    unfold isControl at h
    simp only [Bool.or_eq_false_iff, decide_eq_false_iff_not] at h
    exact h.1
  have hne : ∀ n : UInt32, n < 0x20 → c.val ≠ n := fun n hn heq => hlow (heq ▸ hn)
  unfold jsonChar
  by_cases hquote : c = '"'
  · subst hquote
    rfl
  by_cases hslash : c = '\\'
  · subst hslash
    rfl
  rw [if_neg hquote, if_neg hslash, if_neg (hne _ (by decide)), if_neg (hne _ (by decide)),
    if_neg (hne _ (by decide)), if_neg (hne _ (by decide)), if_neg (hne _ (by decide)), if_neg hlow]
  have hplain : escaped c = false := by simp [escaped, hquote, hslash]
  rw [hplain]
  exact String.utf8ByteSize_singleton

theorem chars_width {cs : List Char} (h : cs.any isControl = false) :
    ((cs.map jsonChar).map String.utf8ByteSize).sum =
      (cs.map Char.utf8Size).sum + cs.countP escaped := by
  induction cs with
  | nil => rfl
  | cons c cs ih =>
    rw [any_cons, Bool.or_eq_false_iff] at h
    rw [map_cons, map_cons, sum_cons, ih h.2, jsonChar_width h.1, map_cons, sum_cons, countP_cons]
    omega

theorem width_string (h : s.toList.any isControl = false) :
    (string s).width = textBytes s + 2 := by
  unfold width textBytes
  rw [render, jsonString, String.utf8ByteSize_append, String.utf8ByteSize_append,
    utf8ByteSize_join, chars_width h, utf8ByteSize_eq s, show "\"".utf8ByteSize = 1 from rfl]
  omega

theorem digit_plain (h : c.isDigit = true) :
    isControl c = false ∧ escaped c = false ∧ c.utf8Size = 1 := by
  obtain ⟨d, hd, rfl⟩ := exists_digit h
  have hcases : d = 0 ∨ d = 1 ∨ d = 2 ∨ d = 3 ∨ d = 4 ∨ d = 5 ∨ d = 6 ∨ d = 7 ∨ d = 8 ∨ d = 9 := by
    omega
  rcases hcases with rfl | rfl | rfl | rfl | rfl | rfl | rfl | rfl | rfl | rfl <;> decide

theorem toList_toString (n : Nat) : (toString n).toList = text n := by
  rw [Nat.toString_eq_ofList_toDigits, String.toList_ofList]
  rfl

theorem digit_of_mem_toString {n : Nat} (h : c ∈ (toString n).toList) : c.isDigit = true :=
  isDigit_of_mem_text (toList_toString n ▸ h)

theorem plain_toString (n : Nat) : (toString n).toList.any isControl = false :=
  any_eq_false.2 fun c hc => by simp [(digit_plain (digit_of_mem_toString hc)).1]

theorem countP_escaped_toString (n : Nat) : (toString n).toList.countP escaped = 0 :=
  countP_eq_zero.2 fun c hc => by simp [(digit_plain (digit_of_mem_toString hc)).2.1]

theorem utf8ByteSize_toString (n : Nat) : (toString n).utf8ByteSize = Decimal.width n := by
  have hones : (toString n).toList.map Char.utf8Size = (toString n).toList.map fun _ => 1 :=
    map_congr_left fun c hc => (digit_plain (digit_of_mem_toString hc)).2.2
  rw [utf8ByteSize_eq, hones, toList_toString, map_const', sum_replicate_nat, mul_one]
  rfl

theorem width_counter (n : Nat) : (counter n).width = Decimal.width n + 2 := by
  unfold counter
  rw [width_string (plain_toString n), textBytes, countP_escaped_toString, utf8ByteSize_toString]

end Json

end AgentUplink
