import CodeAtlas.Json.Number

/-!
# Values of a JSON text

The text is cut into tokens by one pass over its characters, and the tokens build the value on
a stack of open containers.  Neither pass goes back, so both are recursions on a list.
-/

namespace CodeAtlas.Json

/-- The tokens of a JSON text.  A text token without content holds half of a surrogate pair. -/
inductive Token
  | openArray
  | closeArray
  | openObject
  | closeObject
  | comma
  | colon
  | text (content : Option String)
  | value (value : Json)
deriving Repr

namespace Token

/-- Where the reader of tokens stands: between tokens, inside a text, or inside a number or a
word.  Characters read so far are kept in reverse. -/
inductive Mode
  | between
  | text (done : List Char) (broken : Bool)
  | bare (done : List Char)

/-- White space between tokens. -/
def isSpace (c : Char) : Bool :=
  c = ' ' || c = '\n' || c = '\t' || c = '\r'

/-- Characters of numbers and words. -/
def isBare (c : Char) : Bool :=
  c.isAlphanum || c = '-' || c = '+' || c = '.'

/-- The tokens that are a single character. -/
def punctuation? (c : Char) : Option Token :=
  if c = '[' then some .openArray
  else if c = ']' then some .closeArray
  else if c = '{' then some .openObject
  else if c = '}' then some .closeObject
  else if c = ',' then some .comma
  else if c = ':' then some .colon
  else none

/-- The value of a word or a number. -/
def bareValue? (characters : List Char) : Option Json :=
  if characters = ['n', 'u', 'l', 'l'] then some .null
  else if characters = ['t', 'r', 'u', 'e'] then some (.bool true)
  else if characters = ['f', 'a', 'l', 's', 'e'] then some (.bool false)
  else (JsonNumber.Literal.ofCharacters? characters).map fun literal =>
    match literal.value? with
    | some found => .number found
    | none => .unreadable

def hexValue? (c : Char) : Option Nat :=
  if c.isDigit then some (c.toNat - '0'.toNat)
  else if 'a' ≤ c ∧ c ≤ 'f' then some (c.toNat - 'a'.toNat + 10)
  else if 'A' ≤ c ∧ c ≤ 'F' then some (c.toNat - 'A'.toNat + 10)
  else none

/-- The value of four hexadecimal digits. -/
def codeUnit? (a b c d : Char) : Option Nat := do
  return (((← hexValue? a) * 16 + (← hexValue? b)) * 16 + (← hexValue? c)) * 16 + (← hexValue? d)

/-- The character that a letter after a backslash stands for. -/
def escaped? (c : Char) : Option Char :=
  if c = '"' || c = '\\' || c = '/' then some c
  else if c = 'b' then some (Char.ofNat 8)
  else if c = 'f' then some (Char.ofNat 12)
  else if c = 'n' then some '\n'
  else if c = 'r' then some '\r'
  else if c = 't' then some '\t'
  else none

def isHighSurrogate (unit : Nat) : Bool := 0xD800 ≤ unit && unit < 0xDC00

def isLowSurrogate (unit : Nat) : Bool := 0xDC00 ≤ unit && unit < 0xE000

/-- The tokens of a text, after those already found (the last one first). -/
def scan (mode : Mode) (done : List Token) : List Char → Option (List Token)
  | [] =>
      match mode with
      | .between => some done.reverse
      | .text _ _ => none
      | .bare word => (bareValue? word.reverse).map fun value => (.value value :: done).reverse
  | c :: rest =>
      match mode with
      | .between =>
          if isSpace c then scan .between done rest
          else if c = '"' then scan (.text [] false) done rest
          else if isBare c then scan (.bare [c]) done rest
          else match punctuation? c with
            | some token => scan .between (token :: done) rest
            | none => none
      | .bare word =>
          if isBare c then scan (.bare (c :: word)) done rest
          else match bareValue? word.reverse with
            | none => none
            | some found =>
                if isSpace c then scan .between (.value found :: done) rest
                else match punctuation? c with
                  | some token => scan .between (token :: .value found :: done) rest
                  | none => none
      | .text characters broken =>
          if c = '"' then
            let content :=
              if broken then none else some (String.ofList characters.reverse)
            scan .between (.text content :: done) rest
          else if c.toNat < 32 then none
          else if c = '\\' then
            match rest with
            -- Two escapes may be the halves of one character.  Where they are not, only the
            -- first is read here, and the second is left in the input.
            | 'u' :: a :: b :: d :: e :: '\\' :: 'u' :: p :: q :: r :: s :: after =>
                match codeUnit? a b d e, codeUnit? p q r s with
                | some high, some low =>
                    if isHighSurrogate high then
                      if isLowSurrogate low then
                        let code := 0x10000 + (high - 0xD800) * 0x400 + (low - 0xDC00)
                        scan (.text (Char.ofNat code :: characters) broken) done after
                      else
                        scan (.text characters true) done ('\\' :: 'u' :: p :: q :: r :: s :: after)
                    else if isLowSurrogate high then
                      scan (.text characters true) done ('\\' :: 'u' :: p :: q :: r :: s :: after)
                    else
                      scan (.text (Char.ofNat high :: characters) broken) done
                        ('\\' :: 'u' :: p :: q :: r :: s :: after)
                | _, _ => none
            | 'u' :: a :: b :: d :: e :: after =>
                match codeUnit? a b d e with
                | some unit =>
                    if isHighSurrogate unit || isLowSurrogate unit then
                      scan (.text characters true) done after
                    else scan (.text (Char.ofNat unit :: characters) broken) done after
                | none => none
            | letter :: after =>
                match escaped? letter with
                | some character => scan (.text (character :: characters) broken) done after
                | none => none
            | [] => none
          else scan (.text (c :: characters) broken) done rest
termination_by characters => characters.length

end Token

/-- A container whose end has not been read.  What it holds so far is kept in reverse. -/
inductive Frame
  | array (done : List Json)
  | object (done : List (String × Json)) (name : String) (broken : Bool)
deriving Repr

/-- What may follow. -/
inductive Phase
  | item
  | itemOrEnd
  | name
  | nameOrEnd
  | colon
  | separator
  | finished (value : Json)
deriving Repr

/-- The open containers, innermost first, and what may follow. -/
structure Builder where
  stack : List Frame
  phase : Phase
deriving Repr

namespace Builder

/-- Put a finished value into the innermost container. -/
def put (stack : List Frame) (value : Json) : Builder :=
  match stack with
  | [] => ⟨[], .finished value⟩
  | .array done :: outer => ⟨.array (value :: done) :: outer, .separator⟩
  | .object done name broken :: outer =>
      ⟨.object ((name, value) :: done) name broken :: outer, .separator⟩

/-- Close the innermost container, which must be an array. -/
def closeArray? : List Frame → Option Builder
  | .array done :: outer => some (put outer (.array done.reverse))
  | _ => none

/-- Close the innermost container, which must be an object. -/
def closeObject? : List Frame → Option Builder
  | .object done _ broken :: outer =>
      some (put outer (if broken then .unreadable else .object done.reverse))
  | _ => none

/-- Note the name of the member that follows. -/
def nameMember? (stack : List Frame) (content : Option String) : Option Builder :=
  match stack with
  | .object done _ broken :: outer =>
      match content with
      | some name => some ⟨.object done name broken :: outer, .colon⟩
      | none => some ⟨.object done "" true :: outer, .colon⟩
  | _ => none

/-- The value of a text token. -/
def textValue : Option String → Json
  | some text => .string text
  | none => .unreadable

/-- Take one token. -/
def step? (builder : Builder) (token : Token) : Option Builder :=
  match builder.phase, token with
  | .item, .openArray | .itemOrEnd, .openArray => some ⟨.array [] :: builder.stack, .itemOrEnd⟩
  | .item, .openObject | .itemOrEnd, .openObject =>
      some ⟨.object [] "" false :: builder.stack, .nameOrEnd⟩
  | .item, .text content | .itemOrEnd, .text content =>
      some (put builder.stack (textValue content))
  | .item, .value value | .itemOrEnd, .value value => some (put builder.stack value)
  | .itemOrEnd, .closeArray | .separator, .closeArray => closeArray? builder.stack
  | .nameOrEnd, .closeObject | .separator, .closeObject => closeObject? builder.stack
  | .name, .text content | .nameOrEnd, .text content => nameMember? builder.stack content
  | .colon, .colon => some ⟨builder.stack, .item⟩
  | .separator, .comma =>
      match builder.stack with
      | .array _ :: _ => some ⟨builder.stack, .item⟩
      | .object _ _ _ :: _ => some ⟨builder.stack, .name⟩
      | [] => none
  | _, _ => none

/-- The value when all tokens are read. -/
def result? (builder : Builder) : Option Json :=
  match builder.phase with
  | .finished value => some value
  | _ => none

end Builder

/-- The value of a text as it stands: repeated names kept, unreadable parts marked. -/
def ofText? (text : String) : Option Json := do
  let tokens ← Token.scan .between [] text.toList
  let builder ← tokens.foldlM Builder.step? ⟨[], .item⟩
  builder.result?

/-- The greatest number of containers nested in one another. -/
def depthLimit : Nat := 127

/-- The value of a text that is kept as a value: every part readable, not nested too deep, of
repeated names the last. -/
def ofText (text : String) : Option Json := do
  let value ← ofText? text
  if value.isReadable && value.depth ≤ depthLimit then some value.merged else none

end CodeAtlas.Json
