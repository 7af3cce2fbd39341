/-!
# Exchange errors

Why a document is not read or written: its markup is malformed, its elements do not form an exchange
document, it names a character set that is not read, or the octets could not be transported.
-/

namespace BuildingBus.Exchange

/-- Why a document is refused, or could not be delivered or taken. Three of the causes are told
under one name, that of malformed markup. -/
inductive ExchangeError where
  /-- markup that breaks a rule of the format -/
  | malformed
  /-- an element after the document element -/
  | contentAfterRoot
  /-- a document element that is not closed -/
  | unexpectedEnd
  /-- a document element with another name, or none at all -/
  | unexpectedRoot (name : String)
  /-- a declared character set that is not read -/
  | unsupportedCharset (name : String)
  /-- the bound of a range that is no number -/
  | invalidBound (key value : String)
  /-- octets that could not be delivered or taken -/
  | transport
  deriving DecidableEq, Repr

namespace ExchangeError

/-- The name of the cause. -/
def label : ExchangeError → String
  | malformed | contentAfterRoot | unexpectedEnd => "Malformed"
  | unexpectedRoot _ => "UnexpectedRoot"
  | unsupportedCharset _ => "UnsupportedCharset"
  | invalidBound _ _ => "InvalidAttribute"
  | transport => "Io"

/-- What the error happened to. -/
def detail : ExchangeError → String
  | malformed => "markup is not well-formed"
  | contentAfterRoot => "content after document element"
  | unexpectedEnd => "unexpected end of document"
  | unexpectedRoot name | unsupportedCharset name => name
  | invalidBound key value => key ++ "=\"" ++ value ++ "\""
  | transport => "transport failed"

/-- The message shown for the error. -/
def message (e : ExchangeError) : String :=
  "Exchange error: " ++ e.label ++ " (" ++ e.detail ++ ")"

end ExchangeError

end BuildingBus.Exchange
