namespace Gamebook

/-- The part before the first separator, and the parts behind each one. -/
def split (separator : Char) : List Char → List Char × List (List Char)
  | [] => ([], [])
  | c :: cs =>
    let (first, others) := split separator cs
    if c = separator then ([], first :: others) else (c :: first, others)

def join (separator : Char) (first : List Char) (others : List (List Char)) : List Char :=
  first ++ others.flatMap fun part => separator :: part

theorem join_split (separator : Char) (cs : List Char) :
    join separator (split separator cs).1 (split separator cs).2 = cs := by
  induction cs with
  | nil => rfl
  | cons c cs ih =>
    unfold join at ih ⊢
    by_cases h : c = separator
    · simp [split, h, ih]
    · simp [split, h, ih]

end Gamebook
