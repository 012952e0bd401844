import KeyedCoding.Text.CaseMapping

/-!
# Key strategies

How wire keys are made from the names of members and variants.  The strategies find words by
separators and by changes of case; only the all-lower and all-upper ones look beyond ASCII.
-/

namespace KeyedCoding

/-- A conversion of names into keys. -/
inductive KeyStrategy where
  | verbatim
  | camelCase
  | pascalCase
  | snakeCase
  | screamingSnakeCase
  | kebabCase
  | lowercase
  | uppercase
deriving DecidableEq, Repr

namespace KeyStrategy

/-- The strategies that can be asked for, with the names they are asked for by. -/
def named : List (String × KeyStrategy) :=
  [("camelCase", camelCase), ("PascalCase", pascalCase), ("snake_case", snakeCase),
    ("SCREAMING_SNAKE_CASE", screamingSnakeCase), ("kebab-case", kebabCase),
    ("lowercase", lowercase), ("UPPERCASE", uppercase)]

/-- The strategy of a name. -/
def ofName? (name : String) : Option KeyStrategy := named.lookup name

/-- The title of a strategy. -/
def title : KeyStrategy → String
  | verbatim => "Verbatim"
  | camelCase => "CamelCase"
  | pascalCase => "PascalCase"
  | snakeCase => "SnakeCase"
  | screamingSnakeCase => "ScreamingSnakeCase"
  | kebabCase => "KebabCase"
  | lowercase => "Lowercase"
  | uppercase => "Uppercase"

/-- Whether a character divides words. -/
def isSeparator (c : Char) : Bool := c == '_' || c == '-'

/-- Words run together: separators vanish and raise the letter behind them, `raise` tells whether
one has just been passed. -/
def joinWords : Bool → List Char → List Char
  | _, [] => []
  | raise, c :: rest =>
      if isSeparator c then joinWords true rest
      else (if raise then c.toUpper else c) :: joinWords false rest

/-- Words run together, the first letter changed by `first`. -/
def camel (first : Char → Char) (name : List Char) : List Char :=
  match name.dropWhile isSeparator with
  | [] => []
  | c :: rest => first c :: joinWords false rest

/-- Whether a capital behind the character starts a word. -/
def endsWord (c : Char) : Bool := c.isLower || c.isDigit

/-- Words divided by `mark`: it takes the place of `other`, and stands before a capital that
starts a word; `ended` tells whether a capital would. -/
def divideWords (other mark : Char) : Bool → List Char → List Char
  | _, [] => []
  | ended, c :: rest =>
      if c == other then mark :: divideWords other mark false rest
      else if c.isUpper then
        (if ended then [mark] else []) ++ c.toLower :: divideWords other mark false rest
      else c :: divideWords other mark (endsWord c) rest

/-- Words divided by underscores. -/
def snake (name : List Char) : List Char := divideWords '-' '_' false name

/-- Words divided by hyphens. -/
def kebab (name : List Char) : List Char := divideWords '_' '-' false name

/-- The key for a name. -/
def apply (s : KeyStrategy) (name : String) : String :=
  match s with
  | verbatim => name
  | camelCase => String.ofList (camel Char.toLower name.toList)
  | pascalCase => String.ofList (camel Char.toUpper name.toList)
  | snakeCase => String.ofList (snake name.toList)
  | screamingSnakeCase => String.ofList ((snake name.toList).map Char.toUpper)
  | kebabCase => String.ofList (kebab name.toList)
  | lowercase => CaseMapping.lower name
  | uppercase => CaseMapping.upper name

end KeyStrategy

end KeyedCoding
