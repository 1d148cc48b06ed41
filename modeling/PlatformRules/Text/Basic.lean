import PlatformRules.Text.CodePoint

namespace PlatformRules.Text

def byteLength (cs : List Char) : Nat :=
  cs.foldl (fun n c => n + c.utf8Size) 0

theorem foldl_utf8Size (cs : List Char) (n : Nat) :
    cs.foldl (fun n c => n + c.utf8Size) n = n + byteLength cs := by
  induction cs generalizing n with
  | nil => rfl
  | cons c cs ih =>
    rw [byteLength, List.foldl_cons, List.foldl_cons, ih, ih (0 + c.utf8Size)]
    omega

@[simp] theorem byteLength_nil : byteLength [] = 0 := rfl

@[simp] theorem byteLength_cons (c : Char) (cs : List Char) :
    byteLength (c :: cs) = c.utf8Size + byteLength cs := by
  rw [byteLength, List.foldl_cons, foldl_utf8Size]; omega

@[simp] theorem byteLength_append (cs ds : List Char) :
    byteLength (cs ++ ds) = byteLength cs + byteLength ds := by
  induction cs with
  | nil => simp
  | cons c cs ih => simp [ih, Nat.add_assoc]

@[simp] theorem byteLength_reverse (cs : List Char) :
    byteLength cs.reverse = byteLength cs := by
  induction cs with
  | nil => rfl
  | cons c cs ih => simp [ih, Nat.add_comm]

def splitWithin (limit : Nat) (cs : List Char) : List Char × List Char :=
  go limit cs []
where
  go (limit : Nat) : List Char → List Char → List Char × List Char
    | [], done => (done.reverse, [])
    | c :: cs, done =>
      if c.utf8Size ≤ limit then go (limit - c.utf8Size) cs (c :: done)
      else (done.reverse, c :: cs)

theorem splitWithin_go (limit : Nat) (cs done : List Char) :
    splitWithin.go limit cs done =
      (done.reverse ++ (splitWithin limit cs).1, (splitWithin limit cs).2) := by
  induction cs generalizing limit done with
  | nil => simp [splitWithin, splitWithin.go]
  | cons c cs ih =>
    simp only [splitWithin, splitWithin.go]
    split
    · rw [ih, ih _ [c]]; simp
    · simp

theorem splitWithin_cons (limit : Nat) (c : Char) (cs : List Char) :
    splitWithin limit (c :: cs) =
      if c.utf8Size ≤ limit then
        (c :: (splitWithin (limit - c.utf8Size) cs).1, (splitWithin (limit - c.utf8Size) cs).2)
      else ([], c :: cs) := by
  rw [splitWithin, splitWithin.go]
  split
  · rw [splitWithin_go]; rfl
  · rfl

@[simp] theorem splitWithin_append (limit : Nat) (cs : List Char) :
    (splitWithin limit cs).1 ++ (splitWithin limit cs).2 = cs := by
  induction cs generalizing limit with
  | nil => rfl
  | cons c cs ih => rw [splitWithin_cons]; split <;> simp [ih]

theorem byteLength_splitWithin_le (limit : Nat) (cs : List Char) :
    byteLength (splitWithin limit cs).1 ≤ limit := by
  induction cs generalizing limit with
  | nil => simp [splitWithin, splitWithin.go]
  | cons c cs ih =>
    rw [splitWithin_cons]
    split
    · have := ih (limit - c.utf8Size)
      simp only [byteLength_cons]
      omega
    · simp

def splitAt? (offset : Nat) (cs : List Char) : Option (List Char × List Char) :=
  let parts := splitWithin offset cs
  if byteLength parts.1 = offset then some parts else none

def trimStart (cs : List Char) : List Char :=
  cs.dropWhile isBlank

def trimEnd (cs : List Char) : List Char :=
  (cs.reverse.dropWhile isBlank).reverse

def trim (cs : List Char) : List Char :=
  trimEnd (trimStart cs)

def withoutReturn (cs : List Char) : List Char :=
  if cs.getLast? = some '\r' then cs.dropLast else cs

end PlatformRules.Text
