import Mathlib.Data.List.Forall2
import ApiTest.Json.Schema
import ApiTest.Text.Decimal

/-! The grammar of JSON texts, as far as these texts are written: without blanks, with
natural numbers, and with strings whose bytes stand for themselves. A text that derives
from a value is complete; nothing is missing at its end. -/

namespace ApiTest.Json

open ApiTest.Text

/-- A byte that a string holds as it is: printable ASCII other than the quotation mark
and the backslash. -/
def isLiteral (c : UInt8) : Bool := 0x20 ≤ c && c < 0x7F && c ≠ 0x22 && c ≠ 0x5C

def quote (s : GoString) : GoString := lit "\"" ++ s ++ lit "\""

/-- A member of an object. -/
def member (name text : GoString) : GoString := quote name ++ lit ":" ++ text

/-- The text derives from the value. -/
inductive Derives : Value → GoString → Prop
  | nat (n : ℕ) : Derives (.num n) (digits n)
  | str {s : GoString} (h : s.all isLiteral = true) : Derives (.str s) (quote s)
  | arr {items : List Value} {texts : List GoString} (h : List.Forall₂ Derives items texts) :
      Derives (.arr items) (lit "[" ++ (lit ",").intercalate texts ++ lit "]")
  | obj {members : List (GoString × Value)} {texts : List GoString}
      (hnames : ∀ m ∈ members, m.1.all isLiteral = true)
      (h : List.Forall₂ Derives (members.map Prod.snd) texts) :
      Derives (.obj members) (lit "\x7b" ++
        (lit ",").intercalate (List.zipWith member (members.map Prod.fst) texts) ++ lit "\x7d")

/-- One more item at the end. -/
theorem intercalate_concat {α : Type*} (sep : List α) {xs : List (List α)} (x : List α)
    (h : xs ≠ []) : sep.intercalate (xs ++ [x]) = sep.intercalate xs ++ sep ++ x := by
  induction xs with
  | nil => exact absurd rfl h
  | cons y xs ih =>
    cases xs with
    | nil => rw [List.singleton_append, List.intercalate_cons_cons, List.intercalate_singleton,
        List.intercalate_singleton]
    | cons z zs =>
      rw [List.cons_append, List.intercalate_cons_of_ne_nil (List.append_ne_nil_of_left_ne_nil
        (List.cons_ne_nil z zs) _), ih (List.cons_ne_nil z zs),
        List.intercalate_cons_of_ne_nil (List.cons_ne_nil z zs)]
      simp only [List.append_assoc]

/-- A list of values of which each has its text. -/
theorem Derives.arr_map {α : Type*} {value : α → Value} {text : α → GoString} (xs : List α)
    (h : ∀ x ∈ xs, Derives (value x) (text x)) :
    Derives (.arr (xs.map value)) (lit "[" ++ (lit ",").intercalate (xs.map text) ++ lit "]") := by
  refine .arr ?_
  rw [List.forall₂_map_left_iff, List.forall₂_map_right_iff, List.forall₂_same]
  exact h

/-- An object of two members. -/
theorem Derives.obj_pair {name name' : GoString} {v v' : Value} {t t' : GoString}
    (hname : name.all isLiteral = true) (hname' : name'.all isLiteral = true) (h : Derives v t)
    (h' : Derives v' t') :
    Derives (.obj [(name, v), (name', v')])
      (lit "\x7b" ++ member name t ++ lit "," ++ member name' t' ++ lit "\x7d") := by
  have hnames : ∀ m ∈ [(name, v), (name', v')], m.1.all isLiteral = true :=
    List.forall_mem_cons.mpr ⟨hname, List.forall_mem_singleton.mpr hname'⟩
  have htexts : List.Forall₂ Derives ([(name, v), (name', v')].map Prod.snd) [t, t'] :=
    .cons h (.cons h' .nil)
  simpa [List.intercalate, List.intersperse] using Derives.obj hnames htexts

/-- An object of a number and a string, as a format string with two verbs writes it. -/
theorem Derives.obj_nat_str {name name' s head middle : GoString} (n : ℕ)
    (hname : name.all isLiteral = true) (hname' : name'.all isLiteral = true)
    (hs : s.all isLiteral = true) (hhead : head = lit "\x7b" ++ quote name ++ lit ":")
    (hmiddle : middle = lit "," ++ quote name' ++ lit ":\"") :
    Derives (.obj [(name, .num n), (name', .str s)])
      (head ++ digits n ++ middle ++ s ++ lit "\"\x7d") := by
  have hobj : Derives (.obj [(name, .num n), (name', .str s)]) _ :=
    .obj_pair hname hname' (.nat n) (.str hs)
  have hopen : lit ":\"" = lit ":" ++ lit "\"" := by decide
  have hclose : lit "\"\x7d" = lit "\"" ++ lit "\x7d" := by decide
  rw [member, member] at hobj
  rw [hhead, hmiddle, hopen, hclose]
  simpa only [quote, List.append_assoc] using hobj

end ApiTest.Json
