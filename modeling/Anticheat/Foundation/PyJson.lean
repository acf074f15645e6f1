import Anticheat.Foundation.PyText

/-!
# Reading JSON as Python does

The function {lit}`json.loads` of the Python standard library, on a string.  It accepts
more than RFC 8259 does: the constants `NaN`, `Infinity` and `-Infinity`, and surrogates
written as escapes that have no partner.  Of two members of an object with one name the
later one wins.  A text that is nested too deeply for the interpreter raises
{lit}`RecursionError`, which is not a {lit}`ValueError`.

Main results:

- Theorem {lit}`loads_fuel`: the bound on the recursion that {lit}`loads` uses is
  never reached.
- Theorem {lit}`scanString_reads`: a string literal is read back, given that each of its
  characters is.
- Theorem {lit}`parseMembers_item`: what one member of an object adds.
-/

namespace Foundation

/-- The values that a JSON text denotes. -/
inductive PyVal where
  | none
  | bool (b : Bool)
  | int (i : Int)
  /-- a `float`, by the text that it is read from -/
  | float (text : PyStr)
  | str (s : PyStr)
  | list (l : List PyVal)
  /-- a `dict`, in the order of insertion -/
  | dict (d : List (PyStr × PyVal))

namespace PyJson

/-- Why a text is not read. -/
inductive JsonError where
  | value
  | recursion
deriving DecidableEq, Repr

/-- `d[key] = v` -/
def dictSet (d : List (PyStr × PyVal)) (key : PyStr) (v : PyVal) : List (PyStr × PyVal) :=
  if d.any fun m => m.1 == key then d.map fun m => if m.1 = key then (key, v) else m
  else d ++ [(key, v)]

/-- `d.get(key)` -/
def dictGet (d : List (PyStr × PyVal)) (key : PyStr) : PyVal :=
  ((d.find? fun m => m.1 == key).map Prod.snd).getD .none

def isWs (c : Nat) : Bool :=
  c == 32 || c == 9 || c == 10 || c == 13

def skipWs (s : PyStr) : PyStr :=
  s.dropWhile isWs

/-! ## Strings -/

/-- One character of a string literal, or one escaped UTF-16 unit. -/
inductive StrUnit where
  | raw (c : Nat)
  | escaped (u : Nat)
deriving DecidableEq, Repr

def StrUnit.code : StrUnit → Nat
  | raw c => c
  | escaped u => u

/-- Where a scanner stands in a string literal. -/
inductive StrMode where
  | plain
  | escape
  /-- within `\uXXXX`: the number of digits to come and the value of those read -/
  | hex (need acc : Nat)
deriving DecidableEq, Repr

def hexValue (c : Nat) : Option Nat :=
  if 48 ≤ c ∧ c ≤ 57 then some (c - 48)
  else if 97 ≤ c ∧ c ≤ 102 then some (c - 87)
  else if 65 ≤ c ∧ c ≤ 70 then some (c - 55)
  else Option.none

/-- The escapes of one letter. -/
def simpleEscape (c : Nat) : Option Nat :=
  if c = 34 ∨ c = 92 ∨ c = 47 then some c
  else if c = 98 then some 8
  else if c = 102 then some 12
  else if c = 110 then some 10
  else if c = 114 then some 13
  else if c = 116 then some 9
  else Option.none

/-- The units of a string literal, and the text after its closing quote. -/
def scanUnits : StrMode → PyStr → Option (List StrUnit × PyStr)
  | _, [] => Option.none
  | .plain, c :: s =>
      if c = 34 then some ([], s)
      else if c = 92 then scanUnits .escape s
      else if c < 32 then Option.none
      else (scanUnits .plain s).map (Prod.map (.raw c :: ·) id)
  | .escape, c :: s =>
      if c = 117 then scanUnits (.hex 4 0) s
      else
        match simpleEscape c with
        | some u => (scanUnits .plain s).map (Prod.map (.raw u :: ·) id)
        | Option.none => Option.none
  | .hex need acc, c :: s =>
      match hexValue c with
      | Option.none => Option.none
      | some d =>
          if need ≤ 1 then
            (scanUnits .plain s).map (Prod.map (.escaped (acc * 16 + d) :: ·) id)
          else scanUnits (.hex (need - 1) (acc * 16 + d)) s

def isHighSurrogate (u : Nat) : Bool :=
  0xD800 ≤ u && u ≤ 0xDBFF

def isLowSurrogate (u : Nat) : Bool :=
  0xDC00 ≤ u && u ≤ 0xDFFF

/-- The characters of a string literal: two escapes that form a surrogate pair are one
character. -/
def joinUnits : List StrUnit → PyStr
  | [] => []
  | u :: us =>
      match u, us with
      | .escaped h, .escaped l :: us' =>
          if isHighSurrogate h && isLowSurrogate l then
            (0x10000 + (h - 0xD800) * 1024 + (l - 0xDC00)) :: joinUnits us'
          else h :: joinUnits (.escaped l :: us')
      | u, us => u.code :: joinUnits us

/-- `scanstring`, after the opening quote -/
def scanString (s : PyStr) : Except JsonError (PyStr × PyStr) :=
  match scanUnits .plain s with
  | some (units, rest) => .ok (joinUnits units, rest)
  | Option.none => .error .value

/-! ## Numbers and constants -/

/-- The fraction of a number, if there is one. -/
def fracPart : PyStr → PyStr
  | p :: s =>
      let digits := s.takeWhile PyStr.isDigit
      if p = 46 ∧ digits ≠ [] then p :: digits else []
  | [] => []

/-- The exponent of a number, if there is one. -/
def expPart : PyStr → PyStr
  | e :: s =>
      let sign := if s.head? = some 43 ∨ s.head? = some 45 then s.take 1 else []
      let digits := (s.drop sign.length).takeWhile PyStr.isDigit
      if (e = 101 ∨ e = 69) ∧ digits ≠ [] then e :: (sign ++ digits) else []
  | [] => []

/-- The integer part of a number: a zero, or digits that do not begin with one. -/
def intPart (s : PyStr) : PyStr :=
  if s.head? = some 48 then [48] else s.takeWhile PyStr.isDigit

/-- `_match_number` -/
def scanNumber (s : PyStr) : Except JsonError (PyVal × PyStr) :=
  let sign := if s.head? = some 45 then [45] else []
  let s := s.drop sign.length
  let digits := intPart s
  if digits = [] then .error .value
  else
    let s := s.drop digits.length
    let frac := fracPart s
    let s := s.drop frac.length
    let exp := expPart s
    let s := s.drop exp.length
    if frac = [] ∧ exp = [] then
      match PyStr.digitsValue digits with
      | some n => .ok (.int (PyStr.signed (!sign.isEmpty) n), s)
      | Option.none => .error .value
    else .ok (.float (sign ++ digits ++ frac ++ exp), s)

/-- The constants, in the order in which they are tried. -/
def constants : List (PyStr × PyVal) :=
  [(PyStr.ofString "null", .none), (PyStr.ofString "true", .bool true),
    (PyStr.ofString "false", .bool false), (PyStr.ofString "NaN", .float (PyStr.ofString "NaN")),
    (PyStr.ofString "Infinity", .float (PyStr.ofString "Infinity")),
    (PyStr.ofString "-Infinity", .float (PyStr.ofString "-Infinity"))]

/-- A constant or a number. -/
def scanScalar (s : PyStr) : Except JsonError (PyVal × PyStr) :=
  match constants.find? fun k => k.1.isPrefixOf s with
  | some k => .ok (k.2, s.drop k.1.length)
  | Option.none => scanNumber s

/-! ## Values -/

/-- A character that has to come next. -/
def expect (c : Nat) : PyStr → Except JsonError PyStr
  | x :: s => if x = c then .ok s else .error .value
  | [] => .error .value

/-- An object or an array, after its opening bracket: `depth` is the number of brackets
that may still be entered, and `items` reads what is not empty. -/
def enter (depth close : Nat) (empty : PyVal)
    (items : Nat → PyStr → Except JsonError (PyVal × PyStr)) (s : PyStr) :
    Except JsonError (PyVal × PyStr) :=
  match depth with
  | 0 => .error .recursion
  | depth + 1 =>
      if (skipWs s).head? = some close then .ok (empty, (skipWs s).tail)
      else items depth (skipWs s)

/-- What comes after a member or an element: the closing bracket, or a comma and more. -/
def afterItem (close : Nat) (done : PyVal) (more : PyStr → Except JsonError (PyVal × PyStr))
    (s : PyStr) : Except JsonError (PyVal × PyStr) :=
  match skipWs s with
  | [] => .error .value
  | c :: s =>
      if c = close then .ok (done, s)
      else if c = 44 then more (skipWs s)
      else .error .value

mutual

/-- `scan_once`.  The first argument bounds the recursion. -/
def scanOnce : Nat → Nat → PyStr → Except JsonError (PyVal × PyStr)
  | 0, _, _ => .error .value
  | _ + 1, _, [] => .error .value
  | fuel + 1, depth, c :: s =>
      if c = 34 then (scanString s).map (Prod.map .str id)
      else if c = 123 then
        enter depth 125 (.dict []) (fun depth s => parseMembers fuel depth [] s) s
      else if c = 91 then
        enter depth 93 (.list []) (fun depth s => parseElements fuel depth [] s) s
      else scanScalar (c :: s)

/-- The members of an object, after those in `d`. -/
def parseMembers : Nat → Nat → List (PyStr × PyVal) → PyStr → Except JsonError (PyVal × PyStr)
  | 0, _, _, _ => .error .value
  | fuel + 1, depth, d, s => do
      let s ← expect 34 s
      let (key, s) ← scanString s
      let s ← expect 58 (skipWs s)
      let (v, s) ← scanOnce fuel depth (skipWs s)
      afterItem 125 (.dict (dictSet d key v))
        (fun s => parseMembers fuel depth (dictSet d key v) s) s

/-- The elements of an array, after those in `l`. -/
def parseElements : Nat → Nat → List PyVal → PyStr → Except JsonError (PyVal × PyStr)
  | 0, _, _, _ => .error .value
  | fuel + 1, depth, l, s => do
      let (v, s) ← scanOnce fuel depth s
      afterItem 93 (.list (l ++ [v])) (fun s => parseElements fuel depth (l ++ [v]) s) s

end

/-- `json.loads(s)`, where `depth` is the number of nested objects and arrays that the
interpreter can enter. -/
def loads (depth : Nat) (s : PyStr) : Except JsonError PyVal :=
  if s.head? = some 0xFEFF then .error .value
  else do
    let (v, rest) ← scanOnce (2 * s.length + 1) depth (skipWs s)
    if skipWs rest = [] then .ok v else .error .value

/-! ## What is left of a text -/

/-- A part of the text was read, and the rest is left. -/
structure Leaves (s r : PyStr) : Prop where
  suffix : r <:+ s
  shorter : r.length < s.length

theorem Leaves.trans {s t r : PyStr} (h : Leaves s t) (h' : Leaves t r) : Leaves s r :=
  ⟨h'.suffix.trans h.suffix, h'.shorter.trans h.shorter⟩

theorem Leaves.trans_suffix {s t r : PyStr} (h : Leaves s t) (h' : r <:+ t) : Leaves s r :=
  ⟨h'.trans h.suffix, h'.length_le.trans_lt h.shorter⟩

theorem leaves_of_suffix {s t r : PyStr} (h : t <:+ s) (h' : Leaves t r) : Leaves s r :=
  ⟨h'.suffix.trans h, h'.shorter.trans_le h.length_le⟩

theorem leaves_cons (c : Nat) (s : PyStr) : Leaves (c :: s) s :=
  ⟨List.suffix_cons c s, Nat.lt_succ_self _⟩

theorem skipWs_suffix (s : PyStr) : skipWs s <:+ s :=
  List.dropWhile_suffix _

theorem length_skipWs_le (s : PyStr) : (skipWs s).length ≤ s.length :=
  (skipWs_suffix s).length_le

theorem Leaves.skipWs {s r : PyStr} (h : Leaves s r) : Leaves s (skipWs r) :=
  h.trans_suffix (skipWs_suffix r)

theorem scanUnits_leaves {m : StrMode} {s r : PyStr} {us : List StrUnit}
    (h : scanUnits m s = some (us, r)) : Leaves s r := by
  induction s generalizing m us with
  | nil => cases m <;> contradiction
  | cons c s ih =>
      have hmore : ∀ m' us', scanUnits m' s = some (us', r) → Leaves (c :: s) r :=
        fun m' us' h' => (leaves_cons c s).trans (ih h')
      have hmap : ∀ m' u, (scanUnits m' s).map (Prod.map (u :: ·) id) = some (us, r) →
          Leaves (c :: s) r := by
        intro m' u h'
        rcases Option.map_eq_some_iff.1 h' with ⟨⟨us', r'⟩, hs, heq⟩
        rw [Prod.map_apply, Prod.mk.injEq, id] at heq
        rw [heq.2] at hs
        exact hmore m' us' hs
      cases m with
      | plain =>
          simp only [scanUnits] at h
          split_ifs at h
          · rw [Option.some.injEq, Prod.mk.injEq] at h
            rw [h.2]
            exact leaves_cons c r
          · exact hmore _ _ h
          · exact hmap _ _ h
      | escape =>
          simp only [scanUnits] at h
          split_ifs at h
          · exact hmore _ _ h
          · split at h
            · exact hmap _ _ h
            · contradiction
      | hex need acc =>
          simp only [scanUnits] at h
          split at h
          · contradiction
          · split_ifs at h
            · exact hmap _ _ h
            · exact hmore _ _ h

/-- A string literal that is read. -/
theorem scanString_eq_ok {s t r : PyStr} (h : scanString s = .ok (t, r)) :
    ∃ us, scanUnits .plain s = some (us, r) ∧ t = joinUnits us := by
  unfold scanString at h
  split at h
  · rename_i units rest hunits
    rw [Except.ok.injEq, Prod.mk.injEq] at h
    rcases h with ⟨rfl, rfl⟩
    exact ⟨units, hunits, rfl⟩
  · contradiction

theorem scanString_leaves {s t r : PyStr} (h : scanString s = .ok (t, r)) : Leaves s r := by
  rcases scanString_eq_ok h with ⟨us, hus, -⟩
  exact scanUnits_leaves hus

theorem expect_leaves {c : Nat} {s r : PyStr} (h : expect c s = .ok r) : Leaves s r := by
  cases s with
  | nil => contradiction
  | cons x s =>
      rw [expect] at h
      split_ifs at h
      rw [← Except.ok.inj h]
      exact leaves_cons x s

/-- A number is an `int` or a `float`. -/
theorem scanNumber_eq_ok {s r : PyStr} {v : PyVal} (h : scanNumber s = .ok (v, r)) :
    ((∃ i, v = .int i) ∨ ∃ text, v = .float text) ∧ Leaves s r := by
  unfold scanNumber at h
  extract_lets sign s1 digits s2 frac s3 exp s4 at h
  split_ifs at h with hdigits
  all_goals
    have hpos : 0 < digits.length := List.length_pos_of_ne_nil hdigits
    have hs1 : 0 < s1.length := by
      rcases hs : s1 with - | ⟨c, t⟩
      · exact absurd (by simp only [digits, hs]; rfl) hdigits
      · exact Nat.succ_pos _
    have hleaves : Leaves s s4 := by
      constructor
      · exact (List.drop_suffix _ _).trans ((List.drop_suffix _ _).trans
          ((List.drop_suffix _ _).trans (List.drop_suffix _ _)))
      · simp only [s4, s3, s2, s1, List.length_drop] at hs1 ⊢
        omega
  · split at h
    · rw [Except.ok.injEq, Prod.mk.injEq] at h
      rcases h with ⟨rfl, rfl⟩
      exact ⟨Or.inl ⟨_, rfl⟩, hleaves⟩
    · contradiction
  · rw [Except.ok.injEq, Prod.mk.injEq] at h
    rcases h with ⟨rfl, rfl⟩
    exact ⟨Or.inr ⟨_, rfl⟩, hleaves⟩

/-- A value without parts. -/
def Scalar : PyVal → Prop
  | .none | .bool _ | .int _ | .float _ => True
  | .str _ | .list _ | .dict _ => False

theorem scanScalar_eq_ok {s r : PyStr} {v : PyVal} (h : scanScalar s = .ok (v, r)) :
    Scalar v ∧ Leaves s r := by
  unfold scanScalar at h
  split at h
  · rename_i k hk
    rw [Except.ok.injEq, Prod.mk.injEq] at h
    have hmem := List.mem_of_find?_eq_some hk
    have hstarts : k.1 <+: s := List.isPrefixOf_iff_prefix.1 (by simpa using List.find?_some hk)
    have hconstants : ∀ k ∈ constants, Scalar k.2 ∧ 0 < k.1.length := by
      intro k hk
      simp only [constants, List.mem_cons, List.not_mem_nil, or_false] at hk
      rcases hk with rfl | rfl | rfl | rfl | rfl | rfl <;> exact ⟨trivial, by decide⟩
    have hk := hconstants k hmem
    have hle := hstarts.length_le
    rw [← h.1, ← h.2]
    refine ⟨hk.1, List.drop_suffix _ _, ?_⟩
    rw [List.length_drop]
    omega
  · rcases scanNumber_eq_ok h with ⟨⟨i, rfl⟩ | ⟨text, rfl⟩, hleaves⟩
    · exact ⟨trivial, hleaves⟩
    · exact ⟨trivial, hleaves⟩

/-! ## A value that is read -/

/-- A bind that succeeds has a first part that succeeds. -/
theorem bind_eq_ok {α β : Type} {x : Except JsonError α} {f : α → Except JsonError β} {b : β}
    (h : x >>= f = .ok b) : ∃ a, x = .ok a ∧ f a = .ok b := by
  cases x with
  | error e => contradiction
  | ok a => exact ⟨a, rfl, h⟩

theorem enter_eq_ok {depth close : Nat} {empty v : PyVal} {s r : PyStr}
    {items : Nat → PyStr → Except JsonError (PyVal × PyStr)}
    (h : enter depth close empty items s = .ok (v, r)) :
    (v = empty ∧ r <:+ s) ∨ ∃ depth' t, t <:+ s ∧ items depth' t = .ok (v, r) := by
  cases depth with
  | zero => contradiction
  | succ depth =>
      rw [enter] at h
      split_ifs at h
      · rw [Except.ok.injEq, Prod.mk.injEq] at h
        rcases h with ⟨rfl, rfl⟩
        exact Or.inl ⟨rfl, (List.tail_suffix _).trans (skipWs_suffix s)⟩
      · exact Or.inr ⟨depth, _, skipWs_suffix s, h⟩

theorem afterItem_eq_ok {close : Nat} {done v : PyVal} {s r : PyStr}
    {more : PyStr → Except JsonError (PyVal × PyStr)}
    (h : afterItem close done more s = .ok (v, r)) :
    (v = done ∧ Leaves s r) ∨ ∃ t, Leaves s t ∧ more t = .ok (v, r) := by
  unfold afterItem at h
  split at h
  · contradiction
  · rename_i c t ht
    have hleaves : Leaves s t := by
      refine leaves_of_suffix (skipWs_suffix s) ?_
      rw [ht]
      exact leaves_cons c t
    split_ifs at h
    · rw [Except.ok.injEq, Prod.mk.injEq] at h
      rcases h with ⟨rfl, rfl⟩
      exact Or.inl ⟨rfl, hleaves⟩
    · exact Or.inr ⟨_, hleaves.skipWs, h⟩

/-- How a value came to be read. -/
inductive Scanned (fuel : Nat) (s : PyStr) : PyVal → PyStr → Prop where
  | string {t u r : PyStr} : Leaves s t → scanString t = .ok (u, r) → Scanned fuel s (.str u) r
  | emptyDict {r : PyStr} : Leaves s r → Scanned fuel s (.dict []) r
  | members {depth : Nat} {t r : PyStr} {v : PyVal} : Leaves s t →
      parseMembers fuel depth [] t = .ok (v, r) → Scanned fuel s v r
  | emptyList {r : PyStr} : Leaves s r → Scanned fuel s (.list []) r
  | elements {depth : Nat} {t r : PyStr} {v : PyVal} : Leaves s t →
      parseElements fuel depth [] t = .ok (v, r) → Scanned fuel s v r
  | scalar {r : PyStr} {v : PyVal} : Scalar v → Leaves s r → Scanned fuel s v r

theorem scanOnce_eq_ok {fuel depth : Nat} {s r : PyStr} {v : PyVal}
    (h : scanOnce (fuel + 1) depth s = .ok (v, r)) : Scanned fuel s v r := by
  cases s with
  | nil => contradiction
  | cons c s =>
      have htail := leaves_cons c s
      rw [scanOnce] at h
      split_ifs at h
      · cases hs : scanString s with
        | error e =>
            rw [hs] at h
            contradiction
        | ok tr =>
            rw [hs, Except.map, Except.ok.injEq, Prod.map, Prod.mk.injEq, id] at h
            rw [← h.1, ← h.2]
            exact .string htail hs
      · rcases enter_eq_ok h with ⟨rfl, hr⟩ | ⟨depth', t, ht, h⟩
        · exact .emptyDict (htail.trans_suffix hr)
        · exact .members (htail.trans_suffix ht) h
      · rcases enter_eq_ok h with ⟨rfl, hr⟩ | ⟨depth', t, ht, h⟩
        · exact .emptyList (htail.trans_suffix hr)
        · exact .elements (htail.trans_suffix ht) h
      · exact .scalar (scanScalar_eq_ok h).1 (scanScalar_eq_ok h).2

/-- One member is read, and then the bracket is closed or there are more. -/
theorem parseMembers_eq_ok {fuel depth : Nat} {d : List (PyStr × PyVal)} {s r : PyStr}
    {v : PyVal} (h : parseMembers (fuel + 1) depth d s = .ok (v, r)) :
    ∃ key item t t', Leaves s t ∧ scanOnce fuel depth t = .ok (item, t') ∧
      ((v = .dict (dictSet d key item) ∧ Leaves t' r) ∨
        ∃ t'', Leaves t' t'' ∧
          parseMembers fuel depth (dictSet d key item) t'' = .ok (v, r)) := by
  rw [parseMembers] at h
  rcases bind_eq_ok h with ⟨s1, h1, h⟩
  rcases bind_eq_ok h with ⟨⟨key, s2⟩, h2, h⟩
  rcases bind_eq_ok h with ⟨s3, h3, h⟩
  rcases bind_eq_ok h with ⟨⟨item, s4⟩, h4, h⟩
  have hkey : Leaves s s2 := (expect_leaves h1).trans (scanString_leaves h2)
  have hvalue : Leaves s (skipWs s3) := (hkey.skipWs.trans (expect_leaves h3)).skipWs
  exact ⟨key, item, _, s4, hvalue, h4, afterItem_eq_ok h⟩

/-- One element is read, and then the bracket is closed or there are more. -/
theorem parseElements_eq_ok {fuel depth : Nat} {l : List PyVal} {s r : PyStr} {v : PyVal}
    (h : parseElements (fuel + 1) depth l s = .ok (v, r)) :
    ∃ item t, scanOnce fuel depth s = .ok (item, t) ∧
      ((v = .list (l ++ [item]) ∧ Leaves t r) ∨
        ∃ t', Leaves t t' ∧ parseElements fuel depth (l ++ [item]) t' = .ok (v, r)) := by
  rw [parseElements] at h
  rcases bind_eq_ok h with ⟨⟨item, t⟩, hitem, h⟩
  exact ⟨item, t, hitem, afterItem_eq_ok h⟩

/-- A value that is read leaves less text. -/
theorem scan_leaves (n : Nat) :
    (∀ depth s v r, scanOnce n depth s = .ok (v, r) → Leaves s r) ∧
    (∀ depth d s v r, parseMembers n depth d s = .ok (v, r) → Leaves s r) ∧
    ∀ depth l s v r, parseElements n depth l s = .ok (v, r) → Leaves s r := by
  induction n with
  | zero =>
      refine ⟨?_, ?_, ?_⟩
      · intro depth s v r h
        contradiction
      · intro depth d s v r h
        contradiction
      · intro depth l s v r h
        contradiction
  | succ n ih =>
      rcases ih with ⟨hvalue, hmembers, helements⟩
      refine ⟨?_, ?_, ?_⟩
      · intro depth s v r h
        cases scanOnce_eq_ok h with
        | string ht hstr => exact ht.trans (scanString_leaves hstr)
        | emptyDict hr => exact hr
        | members ht h => exact ht.trans (hmembers _ _ _ _ _ h)
        | emptyList hr => exact hr
        | elements ht h => exact ht.trans (helements _ _ _ _ _ h)
        | scalar _ hr => exact hr
      · intro depth d s v r h
        rcases parseMembers_eq_ok h with ⟨key, item, t, t', ht, hitem, ⟨-, hr⟩ | ⟨t'', ht', h⟩⟩
        · exact (ht.trans (hvalue _ _ _ _ hitem)).trans hr
        · exact ((ht.trans (hvalue _ _ _ _ hitem)).trans ht').trans (hmembers _ _ _ _ _ h)
      · intro depth l s v r h
        rcases parseElements_eq_ok h with ⟨item, t, hitem, ⟨-, hr⟩ | ⟨t', ht, h⟩⟩
        · exact (hvalue _ _ _ _ hitem).trans hr
        · exact ((hvalue _ _ _ _ hitem).trans ht).trans (helements _ _ _ _ _ h)

/-! ## The recursion ends -/

theorem bind_congr_ok {α β : Type} {x : Except JsonError α} {f g : α → Except JsonError β}
    (h : ∀ a, x = .ok a → f a = g a) : x >>= f = x >>= g := by
  cases x with
  | error e => rfl
  | ok a => exact h a rfl

theorem enter_congr {depth close : Nat} {empty : PyVal} {s : PyStr}
    {items items' : Nat → PyStr → Except JsonError (PyVal × PyStr)}
    (h : ∀ depth s', s'.length ≤ s.length → items depth s' = items' depth s') :
    enter depth close empty items s = enter depth close empty items' s := by
  cases depth with
  | zero => rfl
  | succ depth => rw [enter, enter, h depth _ (length_skipWs_le s)]

theorem afterItem_congr {close : Nat} {done : PyVal} {s : PyStr}
    {more more' : PyStr → Except JsonError (PyVal × PyStr)}
    (h : ∀ s', s'.length ≤ s.length → more s' = more' s') :
    afterItem close done more s = afterItem close done more' s := by
  unfold afterItem
  split
  · rfl
  · rename_i c t ht
    have hws := length_skipWs_le s
    rw [ht, List.length_cons] at hws
    rw [h (skipWs t) ((length_skipWs_le t).trans (by omega))]

/-- Two bounds on the recursion that exceed twice the length of the text give one result:
each bracket takes two calls. -/
theorem scan_fuel (n : Nat) :
    (∀ m depth s, 2 * s.length < n → 2 * s.length < m →
      scanOnce n depth s = scanOnce m depth s) ∧
    (∀ m depth d s, 2 * s.length + 1 < n → 2 * s.length + 1 < m →
      parseMembers n depth d s = parseMembers m depth d s) ∧
    ∀ m depth l s, 2 * s.length + 1 < n → 2 * s.length + 1 < m →
      parseElements n depth l s = parseElements m depth l s := by
  induction n with
  | zero =>
      refine ⟨?_, ?_, ?_⟩
      · intro m depth s hn
        exact absurd hn (Nat.not_lt_zero _)
      · intro m depth d s hn
        exact absurd hn (Nat.not_lt_zero _)
      · intro m depth l s hn
        exact absurd hn (Nat.not_lt_zero _)
  | succ n ih =>
      rcases ih with ⟨hvalue, hmembers, helements⟩
      refine ⟨?_, ?_, ?_⟩
      · intro m depth s hn hm
        rcases m with - | m
        · exact absurd hm (Nat.not_lt_zero _)
        cases s with
        | nil => rfl
        | cons c s =>
            rw [List.length_cons] at hn hm
            rw [scanOnce, scanOnce,
              enter_congr fun depth s' hs' => hmembers m depth [] s' (by omega) (by omega),
              enter_congr fun depth s' hs' => helements m depth [] s' (by omega) (by omega)]
      · intro m depth d s hn hm
        rcases m with - | m
        · exact absurd hm (Nat.not_lt_zero _)
        rw [parseMembers, parseMembers]
        refine bind_congr_ok fun s1 h1 => bind_congr_ok fun ks h2 => bind_congr_ok fun s3 h3 => ?_
        have hkey : Leaves s ks.2 := (expect_leaves h1).trans (scanString_leaves h2)
        have hs3 := (hkey.skipWs.trans (expect_leaves h3)).skipWs.shorter
        rw [hvalue m depth (skipWs s3) (by omega) (by omega)]
        refine bind_congr_ok fun vs h4 => afterItem_congr fun s' hs' => ?_
        have h4 := ((scan_leaves m).1 _ _ _ _ h4).shorter
        exact hmembers m depth _ s' (by omega) (by omega)
      · intro m depth l s hn hm
        rcases m with - | m
        · exact absurd hm (Nat.not_lt_zero _)
        rw [parseElements, parseElements, hvalue m depth s (by omega) (by omega)]
        refine bind_congr_ok fun vs h4 => afterItem_congr fun s' hs' => ?_
        have h4 := ((scan_leaves m).1 _ _ _ _ h4).shorter
        exact helements m depth _ s' (by omega) (by omega)

/-- The bound that `loads` uses is never reached. -/
theorem loads_fuel (depth : Nat) (s : PyStr) {fuel : Nat} (h : 2 * s.length < fuel) :
    scanOnce (2 * s.length + 1) depth (skipWs s) = scanOnce fuel depth (skipWs s) := by
  have hws := length_skipWs_le s
  exact (scan_fuel _).1 fuel depth _ (by omega) (by omega)

/-! ## Reading back what was written -/

/-- The text `e` in a string literal is read as the character `c`. -/
def Reads (c : Nat) (e : PyStr) : Prop :=
  ∃ u : StrUnit, u.code = c ∧ (∀ h, u = .escaped h → isHighSurrogate h = false) ∧
    ∀ rest, scanUnits .plain (e ++ rest) =
      (scanUnits .plain rest).map (Prod.map (u :: ·) id)

/-- A character that needs no escape. -/
theorem reads_raw {c : Nat} (h32 : 32 ≤ c) (h34 : c ≠ 34) (h92 : c ≠ 92) : Reads c [c] := by
  refine ⟨.raw c, rfl, by simp, ?_⟩
  intro rest
  rw [List.singleton_append, scanUnits, if_neg h34, if_neg h92, if_neg (by omega)]

/-- Without surrogates there is nothing to join. -/
theorem joinUnits_eq {us : List StrUnit}
    (h : ∀ u ∈ us, ∀ v, u = .escaped v → isHighSurrogate v = false) :
    joinUnits us = us.map StrUnit.code := by
  induction us with
  | nil => rfl
  | cons u us ih =>
      have hrest := ih fun u' hu' => h u' (List.mem_cons_of_mem _ hu')
      have hu := h u List.mem_cons_self
      rw [List.map_cons, ← hrest]
      rcases u with c | v
      · rfl
      · rcases us with - | ⟨u', us⟩
        · rfl
        · rcases u' with c | l
          · rfl
          · rw [joinUnits, hu v rfl, Bool.false_and]
            rfl

/-- A string literal is read back, given that each of its characters is. -/
theorem scanString_reads {text : PyStr} {enc : Nat → PyStr} (h : ∀ c ∈ text, Reads c (enc c))
    (rest : PyStr) : scanString (text.flatMap enc ++ 34 :: rest) = .ok (text, rest) := by
  have hunits : ∃ us : List StrUnit,
      scanUnits .plain (text.flatMap enc ++ 34 :: rest) = some (us, rest) ∧
        us.map StrUnit.code = text ∧
        ∀ u ∈ us, ∀ v, u = .escaped v → isHighSurrogate v = false := by
    induction text with
    | nil => exact ⟨[], by simp [scanUnits], rfl, by simp⟩
    | cons c text ih =>
        rcases ih fun c' hc' => h c' (List.mem_cons_of_mem _ hc') with ⟨us, hus, hmap, hhigh⟩
        rcases h c List.mem_cons_self with ⟨u, hcode, hu, hread⟩
        refine ⟨u :: us, ?_, ?_, ?_⟩
        · rw [List.flatMap_cons, List.append_assoc, hread, hus]
          rfl
        · rw [List.map_cons, hcode, hmap]
        · intro u' hu'
          rcases List.mem_cons.1 hu' with rfl | hu'
          · exact hu
          · exact hhigh u' hu'
  rcases hunits with ⟨us, hus, hmap, hhigh⟩
  rw [scanString, hus]
  dsimp only
  rw [joinUnits_eq hhigh, hmap]

/-- A string literal without escapes. -/
theorem scanString_raw {text : PyStr} (h : ∀ c ∈ text, 32 ≤ c ∧ c ≠ 34 ∧ c ≠ 92)
    (rest : PyStr) : scanString (text ++ 34 :: rest) = .ok (text, rest) := by
  have hraw : ∀ c ∈ text, Reads c ((fun c => [c]) c) := fun c hc =>
    reads_raw (h c hc).1 (h c hc).2.1 (h c hc).2.2
  have hread := scanString_reads hraw rest
  rwa [List.flatMap_singleton'] at hread

/-- The integer part of a number is all of its digits. -/
theorem intPart_digits (n : Nat) {c : Nat} (hc : PyStr.isDigit c = false) (rest : PyStr) :
    intPart (PyStr.digits n ++ c :: rest) = PyStr.digits n := by
  have hdigits : ∀ x ∈ PyStr.digits n, PyStr.isDigit x = true := fun x hx =>
    PyStr.isDigit_of_mem_digits hx
  have htake : (PyStr.digits n ++ c :: rest).takeWhile PyStr.isDigit = PyStr.digits n := by
    rw [List.takeWhile_append_of_pos hdigits, List.takeWhile_cons_of_neg (by simp [hc]),
      List.append_nil]
  rw [intPart, htake]
  rcases hn : PyStr.digits n with - | ⟨x, s⟩
  · exact absurd hn (PyStr.digits_ne_nil n)
  · rw [List.cons_append, List.head?_cons]
    split_ifs with hx
    · -- a zero comes first only if it is the whole number
      by_cases hs : s = []
      · rw [Option.some.inj hx, hs]
      · exact absurd (Option.some.inj hx) (PyStr.head_digits hn hs)
    · rfl

/-- A text that begins like a number is none of the constants. -/
theorem constants_find?_none {negative : Bool} {x : Nat} (hx : PyStr.isDigit x = true)
    (rest : PyStr) :
    constants.find? (fun k => k.1.isPrefixOf ((if negative then [45] else []) ++ x :: rest)) =
      Option.none := by
  simp only [PyStr.isDigit, Bool.and_eq_true, decide_eq_true_eq] at hx
  rw [List.find?_eq_none]
  intro k hk
  simp only [constants, List.mem_cons, List.not_mem_nil, or_false] at hk
  rcases hk with rfl | rfl | rfl | rfl | rfl | rfl <;> cases negative <;>
    simp [PyStr.ofString, List.isPrefixOf] <;> omega

/-- A number in decimal is read back, in front of a character that does not continue it. -/
theorem scanScalar_int (negative : Bool) {n : Nat}
    (hlen : (PyStr.digits n).length ≤ PyStr.maxStrDigits) {c : Nat}
    (hc : PyStr.isDigit c = false) (h46 : c ≠ 46) (h101 : c ≠ 101) (h69 : c ≠ 69)
    (rest : PyStr) :
    scanScalar ((if negative then [45] else []) ++ PyStr.digits n ++ c :: rest) =
      .ok (.int (PyStr.signed negative n), c :: rest) := by
  have hfrac : fracPart (c :: rest) = [] := by simp [fracPart, h46]
  have hexp : expPart (c :: rest) = [] := by simp [expPart, h101, h69]
  have hint := intPart_digits n hc rest
  have hvalue := PyStr.digitsValue_digits hlen
  rcases hn : PyStr.digits n with - | ⟨x, s⟩
  · exact absurd hn (PyStr.digits_ne_nil n)
  have hx : PyStr.isDigit x = true :=
    PyStr.isDigit_of_mem_digits (n := n) (by rw [hn]; exact List.mem_cons_self)
  rw [hn] at hint hvalue
  rw [scanScalar, List.append_assoc, List.cons_append, constants_find?_none hx]
  rw [List.cons_append] at hint
  have hx45 : x ≠ 45 := by
    rintro rfl
    contradiction
  cases negative with
  | false =>
      simp only [scanNumber, Bool.false_eq_true, if_false, List.nil_append, List.head?_cons,
        Option.some.injEq, hx45, List.length_nil, List.drop_zero, hint]
      simp [hfrac, hexp, hvalue]
  | true =>
      simp only [scanNumber, if_true, List.singleton_append, List.head?_cons,
        List.length_singleton, List.drop_one, List.tail_cons, hint]
      simp [hfrac, hexp, hvalue]

theorem ok_bind {α β : Type} (a : α) (f : α → Except JsonError β) :
    (Except.ok a >>= f) = f a :=
  rfl

/-- One member of an object. -/
theorem parseMembers_item {fuel depth : Nat} {d : List (PyStr × PyVal)} {key s1 s2 s3 : PyStr}
    {v : PyVal} (hkey : scanString s1 = .ok (key, 58 :: s2)) (hws : skipWs s2 = s2)
    (hv : scanOnce fuel depth s2 = .ok (v, s3)) :
    parseMembers (fuel + 1) depth d (34 :: s1) =
      afterItem 125 (.dict (dictSet d key v))
        (fun s => parseMembers fuel depth (dictSet d key v) s) s3 := by
  have hquote : expect 34 (34 :: s1) = .ok s1 := rfl
  have hcolon : expect 58 (skipWs (58 :: s2)) = .ok s2 := rfl
  simp only [parseMembers, hquote, ok_bind, hkey, hcolon, hws, hv]

end PyJson
end Foundation
