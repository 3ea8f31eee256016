/-!
# Matching texts with patterns

How the database matches a text with a pattern. In a pattern % stands for any characters and _ for one,
and the character after a slash stands for itself.
-/
namespace Intake.Like

/-- A character as the database matches it: a letter of ASCII in either case as one character, and the two
noncharacters U+FFFE and U+FFFF as the replacement character. -/
def folded (c : Char) : Char :=
  if c.toNat = 0xFFFE ∨ c.toNat = 0xFFFF then Char.ofNat 0xFFFD else c.toLower

/-- Whether some end of a text passes a test: the text, what is left without its first character, and so
on down to nothing. -/
def anyEnd (test : List Char → Bool) : List Char → Bool
  | [] => test []
  | c :: cs => test (c :: cs) || anyEnd test cs

/-- Whether the whole of a text matches a pattern. Nothing matches a slash that ends the pattern. -/
def matchesAll : List Char → List Char → Bool
  | [], text => text.isEmpty
  | c :: pattern, text =>
    if c = '%' then anyEnd (matchesAll pattern) text
    else match text with
      | [] => false
      | d :: text =>
        if c = '_' then matchesAll pattern text
        else if c = '/' then
          match pattern with
          | [] => false
          | e :: pattern => folded e == folded d && matchesAll pattern text
        else folded c == folded d && matchesAll pattern text

/-- The characters in front of the first null. -/
def beforeNull (s : List Char) : List Char := s.takeWhile (·.toNat ≠ 0)

/-- Whether a text is like a pattern. Of both only what is in front of the first null counts. -/
def isLike (text pattern : List Char) : Bool := matchesAll (beforeNull pattern) (beforeNull text)

def isSpecial (c : Char) : Bool := c = '%' || c = '_' || c = '/'

/-- A pattern in which every character of a text stands for itself. -/
def escaped : List Char → List Char
  | [] => []
  | c :: cs => if isSpecial c then '/' :: c :: escaped cs else c :: escaped cs

/-- The pattern of what starts with a text. -/
def patternOf (text : List Char) : List Char := escaped text ++ ['%']

end Intake.Like
