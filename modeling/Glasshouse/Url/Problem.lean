/-
Glasshouse.Url.Problem — why a text is not the address of a web resource.
-/

namespace Glasshouse.Url

/-- Why a text is not an address. -/
inductive Problem where
  | noInput | noBase | noHost | badPort | badDomain | badCharacter | badIpv4 | badIpv6
  deriving DecidableEq, Repr

/-- The wording of a problem. -/
def Problem.text : Problem → String
  | noInput => "input is empty"
  | noBase => "relative URL without a base"
  | noHost => "empty host"
  | badPort => "invalid port number"
  | badDomain => "invalid international domain name"
  | badCharacter => "invalid domain character"
  | badIpv4 => "invalid IPv4 address"
  | badIpv6 => "invalid IPv6 address"

end Glasshouse.Url
