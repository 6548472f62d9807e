import Vmdesk.IpAddr

/-! The public address as the metadata service of the cloud tells it. What the service sends is
read as JSON by a parser that is not looked into. -/
namespace Vmdesk
open Text

namespace Json

inductive Value where
  | null
  | bool (b : Bool)
  | number (digits : Text)
  | string (s : Text)
  | array (items : List Value)
  | object (fields : List (Text × Value))

namespace Value

/- The keys of an object are different from each other. -/
def get (key : Text) : Value → Option Value
  | object fields => (fields.find? (fun field => field.1 == key)).map Prod.snd
  | _ => none

def asStr : Value → Option Text
  | string s => some s
  | _ => none

end Value
end Json

namespace Metadata
open Json (Value)

def trim (s : Text) : Text := trimEnd (s.dropWhile isWhitespace)

def isAddress (ip : Text) : Bool := !ip.isEmpty && (IpAddr.fromStr ip).isSome

def items : Value → Option (List Value)
  | .array items => some items
  | .object fields => some [.object fields]
  | _ => none

def parsePublicIp (fromStr : Text → Option Value) (json : Text) : Option Text := do
  let items ← items (← fromStr json)
  ((items.filterMap (fun v => (v.get "publicIp".toList).bind Value.asStr)).map trim).find? isAddress

structure Response where
  status : UInt16
  reason : Text
  body : Text

def Response.isSuccess (r : Response) : Bool := 200 ≤ r.status && r.status < 300

def detectPublicIp (fromStr : Text → Option Value) : Except Text Response → Except Text Text
  | .error e => .error e
  | .ok response =>
      if !response.isSuccess then .error ("metadata service returned ".toList ++ response.reason ++
        ": ".toList ++ trim response.body)
      else match parsePublicIp fromStr response.body with
        | some ip => .ok ip
        | none => .error ("no publicIp in metadata response: ".toList ++ trim response.body)

theorem parsedWord {fromStr : Text → Option Value} {json ip : Text}
    (parsed : parsePublicIp fromStr json = some ip) : Word ip := by
  simp only [parsePublicIp,Option.bind_eq_bind,Option.bind_eq_some_iff] at parsed
  obtain ⟨_,_,_,_,found⟩ := parsed
  have address := List.find?_some found
  simp only [isAddress,Bool.and_eq_true] at address
  obtain ⟨a,read⟩ := Option.isSome_iff_exists.mp address.2
  exact IpAddr.fromStrWord read

theorem detectedWord {fromStr : Text → Option Value} {response : Except Text Response} {ip : Text}
    (detected : detectPublicIp fromStr response = .ok ip) : Word ip := by
  unfold detectPublicIp at detected
  split at detected
  · contradiction
  · split at detected
    · contradiction
    · split at detected
      · next found =>
        cases detected
        exact parsedWord found
      · contradiction

end Metadata
end Vmdesk
