import Mathlib.Data.List.Basic
import ValueInspector.Text.Numeral

/-! # The grammar of JSON texts

What a value may be written as, said without a reader. A form relates a text to what is left of it
behind the value. Blanks may stand around every value and every mark, a character of a string may be
written in several ways, and the members of an object are told by their names and the forms of their
values. `Value` are the texts of any value: half of a surrogate pair may stand in its strings, which
no string that is kept can hold.
-/
namespace ValueInspector.Json

/-- Which texts stand for something: the text in front, and what is left behind. -/
abbrev Form := List Char → List Char → Prop

/-- Any blanks. -/
inductive Gap : Form
  | none {cs : List Char} : Gap cs cs
  | blank {c : Char} {cs rest : List Char} (hc : c ∈ [' ','\t','\n','\r']) (h : Gap cs rest) :
    Gap (c :: cs) rest

/-- The form with any blanks around it. -/
def Form.Padded (form : Form) : Form := fun cs rest =>
  ∃ start stop, Gap cs start ∧ form start stop ∧ Gap stop rest

section Strings

/-- The letters of the short escapes, and what they stand for. -/
def shortEscapes : List (Char × Char) :=
  [('"','"'),('\\','\\'),('/','/'),('b',Char.ofNat 8),('f',Char.ofNat 12),('n','\n'),('r','\r'),
   ('t','\t')]

/-- Four hexadecimal digits in either case. -/
def CodeUnit (n : Nat) : Form := fun cs rest =>
  ∃ digits, cs = digits ++ rest ∧ digits.length = 4 ∧ Text.readDigits? 16 digits = some n

/-- A character that stands for itself. -/
def IsPlain (c : Char) : Prop := c ≠ '"' ∧ c ≠ '\\' ∧ 0x20 ≤ c.toNat

/-- A character between quotes: itself, a short escape, or its code units. -/
inductive Written (c : Char) : Form
  | plain {rest : List Char} (hc : IsPlain c) : Written c (c :: rest) rest
  | short {e : Char} {rest : List Char} (he : (e,c) ∈ shortEscapes) : Written c ('\\' :: e :: rest) rest
  | unit {cs rest : List Char} (h : CodeUnit c.toNat cs rest) : Written c ('\\' :: 'u' :: cs) rest
  | pair {cs mid rest : List Char} (hc : 0x10000 ≤ c.toNat)
    (hhigh : CodeUnit (0xD800 + (c.toNat - 0x10000) / 0x400) cs ('\\' :: 'u' :: mid))
    (hlow : CodeUnit (0xDC00 + (c.toNat - 0x10000) % 0x400) mid rest) :
    Written c ('\\' :: 'u' :: cs) rest

/-- The characters of a string, and the quote behind them. -/
inductive StringBody : List Char → Form
  | close {rest : List Char} : StringBody [] ('"' :: rest) rest
  | char {c : Char} {text cs mid rest : List Char} (hc : Written c cs mid)
    (h : StringBody text mid rest) : StringBody (c :: text) cs rest

/-- The same for a string that is not kept: code units need not be paired. -/
inductive LooseBody : Form
  | close {rest : List Char} : LooseBody ('"' :: rest) rest
  | plain {c : Char} {cs rest : List Char} (hc : IsPlain c) (h : LooseBody cs rest) :
    LooseBody (c :: cs) rest
  | short {e c : Char} {cs rest : List Char} (he : (e,c) ∈ shortEscapes) (h : LooseBody cs rest) :
    LooseBody ('\\' :: e :: cs) rest
  | unit {n : Nat} {cs mid rest : List Char} (hn : CodeUnit n cs mid) (h : LooseBody mid rest) :
    LooseBody ('\\' :: 'u' :: cs) rest

end Strings

section Numbers

def IsDigits (cs : List Char) : Prop := cs ≠ [] ∧ ∀ c ∈ cs, c.isDigit = true

def IsWhole (cs : List Char) : Prop := cs = ['0'] ∨ IsDigits cs ∧ cs.head? ≠ some '0'

def IsFraction (cs : List Char) : Prop := cs = [] ∨ ∃ ds, cs = '.' :: ds ∧ IsDigits ds

def IsExponent (cs : List Char) : Prop :=
  cs = [] ∨ ∃ e sign ds, cs = e :: (sign ++ ds) ∧ e ∈ ['e','E'] ∧ sign ∈ [[],['+'],['-']] ∧ IsDigits ds

/-- A number: its sign, its integer part without leading zeros, its fraction and its exponent. -/
def IsNumeral (cs : List Char) : Prop :=
  ∃ sign whole fraction exponent, cs = sign ++ (whole ++ (fraction ++ exponent)) ∧
    sign ∈ [[],['-']] ∧ IsWhole whole ∧ IsFraction fraction ∧ IsExponent exponent

/-- A number ends here: neither digits nor another part of it follow. -/
def Follows (rest : List Char) : Prop := ∀ c ∈ rest.head?, c.isDigit = false ∧ c ∉ ['.','e','E']

end Numbers

section Values

/-- The name of a member that is not kept, and the colon behind it. -/
def LooseName : Form := fun cs rest =>
  ∃ name colon, Gap cs ('"' :: name) ∧ LooseBody name colon ∧ Gap colon (':' :: rest)

mutual

/-- The texts of any value. -/
inductive Value : Form
  | null {rest : List Char} : Value ("null".toList ++ rest) rest
  | bool {rest : List Char} (b : Bool) : Value ((toString b).toList ++ rest) rest
  | number {t rest : List Char} (h : IsNumeral t) : Value (t ++ rest) rest
  | string {cs rest : List Char} (h : LooseBody cs rest) : Value ('"' :: cs) rest
  | emptyArray {cs rest : List Char} (h : Gap cs (']' :: rest)) : Value ('[' :: cs) rest
  | array {cs rest : List Char} (h : ValueItems cs rest) : Value ('[' :: cs) rest
  | emptyObject {cs rest : List Char} (h : Gap cs ('\x7d' :: rest)) : Value ('\x7b' :: cs) rest
  | object {cs rest : List Char} (h : ValueMembers cs rest) : Value ('\x7b' :: cs) rest

/-- The items of an array, and the bracket behind them. -/
inductive ValueItems : Form
  | last {cs start stop rest : List Char} (hbefore : Gap cs start) (h : Value start stop)
    (hafter : Gap stop (']' :: rest)) : ValueItems cs rest
  | more {cs start stop mid rest : List Char} (hbefore : Gap cs start) (h : Value start stop)
    (hafter : Gap stop (',' :: mid)) (hmore : ValueItems mid rest) : ValueItems cs rest

/-- The members of an object, and the bracket behind them. -/
inductive ValueMembers : Form
  | last {cs value start stop rest : List Char} (hname : LooseName cs value) (hbefore : Gap value start)
    (h : Value start stop) (hafter : Gap stop ('\x7d' :: rest)) : ValueMembers cs rest
  | more {cs value start stop mid rest : List Char} (hname : LooseName cs value)
    (hbefore : Gap value start) (h : Value start stop) (hafter : Gap stop (',' :: mid))
    (hmore : ValueMembers mid rest) : ValueMembers cs rest

end

end Values

section Kinds

def BoolForm (b : Bool) : Form := fun cs rest => cs = (toString b).toList ++ rest

/-- A natural number in decimal digits. -/
def NatForm (n : Nat) : Form := fun cs rest => cs = Nat.toDigits 10 n ++ rest

def StringForm (s : String) : Form := fun cs rest =>
  ∃ body, cs = '"' :: body ∧ StringBody s.toList body rest

/-- Items of given forms, and the bracket behind them. -/
inductive Items : List Form → Form
  | last {form : Form} {cs rest : List Char} (h : form.Padded cs (']' :: rest)) : Items [form] cs rest
  | more {form : Form} {forms : List Form} {cs mid rest : List Char} (h : form.Padded cs (',' :: mid))
    (hmore : Items forms mid rest) : Items (form :: forms) cs rest

/-- An array with items of given forms. -/
inductive ListForm : List Form → Form
  | empty {cs rest : List Char} (h : Gap cs (']' :: rest)) : ListForm [] ('[' :: cs) rest
  | items {forms : List Form} {cs rest : List Char} (h : Items forms cs rest) :
    ListForm forms ('[' :: cs) rest

/-- The name of a member, and the colon behind it. -/
def NameForm (text : String) : Form := fun cs rest =>
  ∃ name colon, Gap cs ('"' :: name) ∧ StringBody text.toList name colon ∧ Gap colon (':' :: rest)

/-- A member of a given name with a value of a given form. -/
def MemberForm (m : String × Form) : Form := fun cs rest =>
  ∃ value, NameForm m.1 cs value ∧ m.2.Padded value rest

/-- Members of given names and forms, and the bracket behind them. -/
inductive Members : List (String × Form) → Form
  | last {m : String × Form} {cs rest : List Char} (h : MemberForm m cs ('\x7d' :: rest)) :
    Members [m] cs rest
  | more {m : String × Form} {ms : List (String × Form)} {cs mid rest : List Char}
    (h : MemberForm m cs (',' :: mid)) (hmore : Members ms mid rest) : Members (m :: ms) cs rest

/-- An object with members of given names and forms. -/
inductive ObjectForm : List (String × Form) → Form
  | empty {cs rest : List Char} (h : Gap cs ('\x7d' :: rest)) : ObjectForm [] ('\x7b' :: cs) rest
  | members {ms : List (String × Form)} {cs rest : List Char} (h : Members ms cs rest) :
    ObjectForm ms ('\x7b' :: cs) rest

/-- An object with the given members in any order, and members of other names with any values. -/
def OpenForm (known : List String) (members : List (String × Form)) : Form := fun cs rest =>
  ∃ (unknown : List String) (ms : List (String × Form)), (∀ n ∈ unknown, n ∉ known) ∧
    ms.Perm (members ++ unknown.map (·,Value)) ∧ ObjectForm ms cs rest

end Kinds
end ValueInspector.Json
