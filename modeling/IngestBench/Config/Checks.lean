import IngestBench.Config.Fault
import IngestBench.Quantity
import IngestBench.Text.Blank
import IngestBench.Web.Address

/-! The checks that settings are made of. Each says nothing, or what is wrong. -/

namespace IngestBench
namespace Config

abbrev Check := Except Flaw Unit

/-- The check of a part of the settings, under the name of its domain. -/
def inDomain (domain : String) (check : Check) : Except Fault Unit :=
  check.mapError (.invalid domain)

namespace Check

/-- A text that is not blank. -/
def required (field value : String) : Check :=
  if (Text.trimChars value.toList).isEmpty then throw (.empty field) else pure ()

/-- A whole number above zero. -/
def positive (field : String) (n : Int) : Check :=
  if n ≤ 0 then throw (.notPositive field (Text.int n)) else pure ()

/-- A number that is not zero or below; a value that compares with nothing passes. -/
def positiveQuantity {ν : Type} [Quantity ν] (field : String) (write : ν → String) (x : ν) : Check :=
  if Quantity.le x (Quantity.ofNat 0) then throw (.notPositive field (write x)) else pure ()

/-- A length of time other than zero. -/
def nonzero (field : String) (s : Span) : Check :=
  if s.isZero then throw (.zero field) else pure ()

/-- The address of a store. -/
def url (field value : String) : Check :=
  if value.isEmpty then throw (.empty field)
  else match Web.Address.read value with
    | .error fault => throw (.url field fault)
    | .ok address =>
      if address.scheme = "http" ∨ address.scheme = "https" then pure ()
      else throw (.scheme field address.scheme)

/-- One of the choices; the letters of ASCII may have any case. -/
def choice (field value : String) (choices : List String) : Check :=
  let lower (s : String) : List Char := s.toList.map Char.toLower
  if choices.any fun c => lower c == lower value then pure ()
  else throw (.choice field value choices)

end Check
end Config
end IngestBench
