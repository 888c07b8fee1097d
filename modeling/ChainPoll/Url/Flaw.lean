import ChainPoll.Text.Quoted

/-!
# What is wrong with a base address

The reasons for which a text is refused as the base address of a service.
-/

namespace ChainPoll
namespace Url

/-- A reason to refuse a base address. -/
inductive Flaw where
  /-- One kind of bracket without the other in the authority. -/
  | unpairedBracket
  /-- A future address that lacks its version or its text. -/
  | futureAddress
  /-- Brackets around a text without a colon. -/
  | bracketContent
  /-- An authority with characters that stand for separators. -/
  | disguisedSeparator (authority : String)
  /-- A port that is no number. -/
  | portText
  /-- A port beyond the range of ports. -/
  | portRange
  /-- An authority without a host. -/
  | hostMissing (scheme : String)
  /-- A host with an empty or overlong label. -/
  | labelLength
  /-- A host with a label that looks encoded but is not. -/
  | labelPrefix
  /-- No authority, or another scheme than the two of the web. -/
  | notWeb (text : String)
deriving DecidableEq, Repr

/-- Whether a flaw lies in the encoding of the host's labels. -/
def Flaw.isLabelFlaw : Flaw → Bool
  | .labelLength | .labelPrefix => true
  | _ => false

/-- The message of a flaw. -/
def Flaw.message : Flaw → String
  | .unpairedBracket => "Invalid IPv6 URL"
  | .futureAddress => "IPvFuture address is invalid"
  | .bracketContent => "The IPv6 content between brackets is not valid"
  | .disguisedSeparator authority =>
    "netloc '" ++ authority ++ "' contains invalid characters under NFKC normalization"
  | .portText => "Invalid URL: port can't be converted to integer"
  | .portRange => "Port out of range 0-65535"
  | .hostMissing scheme =>
    "Invalid URL: host is required for absolute urls with the " ++ scheme ++ " scheme"
  | .labelLength =>
    "encoding with 'idna' codec failed (UnicodeError: label empty or too long)"
  | .labelPrefix =>
    "encoding with 'idna' codec failed (UnicodeError: Label starts with ACE prefix)"
  | .notWeb text => "Invalid Heimdall URL: " ++ Text.quoted text

end Url
end ChainPoll
