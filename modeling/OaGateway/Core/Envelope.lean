import Mathlib.Data.String.Basic
import OaGateway.Lib.OrdMap
import OaGateway.Lib.Utf8

/-! Ids, routes and envelopes: the protocol-neutral data that crosses the engine. -/
namespace OaGateway.Core

open Lib

/-- Id of one running adapter instance. Any string, the empty one included. -/
structure AdapterId where
  value : String
deriving DecidableEq, Repr

/-- Id of one subscription inside one adapter. -/
structure SubId where
  value : String
deriving DecidableEq, Repr

/-- Gateway id minted for each envelope. Only its text form is ever read. -/
structure MessageId where
  uuid : String
deriving DecidableEq, Repr

/-- Topic plus an optional type hint. A subscription without a hint takes
every type on its topic; a publish without one reaches only those. -/
structure RouteKey where
  topic : String
  typeHint : Option String
deriving DecidableEq, Repr

namespace RouteKey

/-- `RouteKey::topic`: every type on `topic`. -/
def wildcard (topic : String) : RouteKey := ⟨topic, none⟩

def typed (topic typeHint : String) : RouteKey := ⟨topic, some typeHint⟩

end RouteKey

/-- Label for opaque payload bytes, not checked as a MIME type. -/
structure ContentType where
  value : String
deriving DecidableEq, Repr

namespace ContentType

def octetStream : ContentType := ⟨"application/octet-stream"⟩

def json : ContentType := ⟨"application/json"⟩

def xml : ContentType := ⟨"application/xml"⟩

end ContentType

/-- Which adapter last published this envelope onto the engine. -/
def hdrOrigin : String := "oag.origin_adapter"

def hdrTopic : String := "oag.topic"

def hdrTypeHint : String := "oag.type_hint"

def hdrId : String := "oag.id"

/-- The unit of data that crosses the engine. The engine reads only `route`. -/
structure Envelope where
  id : MessageId
  route : RouteKey
  headers : OrdMap String String
  contentType : ContentType
  payload : Bytes

namespace Envelope

/-- A fresh envelope. The id the code draws at random is an argument here. -/
def new (id : MessageId) (route : RouteKey) (payload : Bytes) : Envelope :=
  ⟨id, route, .empty, .octetStream, payload⟩

def withContentType (envelope : Envelope) (contentType : ContentType) : Envelope :=
  { envelope with contentType }

/-- Insert or replace one header. -/
def withHeader (envelope : Envelope) (key value : String) : Envelope :=
  { envelope with headers := envelope.headers.insert key value }

/-- Stamp the adapter whose inbound path published this envelope. -/
def withOrigin (envelope : Envelope) (id : AdapterId) : Envelope :=
  envelope.withHeader hdrOrigin id.value

def origin (envelope : Envelope) : Option String := envelope.headers.get? hdrOrigin

/-- Whether `id`'s inbound path published this envelope. -/
def isEchoOf (envelope : Envelope) (id : AdapterId) : Bool := envelope.origin == some id.value

@[simp] theorem origin_withOrigin (envelope : Envelope) (id : AdapterId) :
    (envelope.withOrigin id).origin = some id.value := by
  simp [origin, withOrigin, withHeader]

@[simp] theorem isEchoOf_withOrigin (envelope : Envelope) (id other : AdapterId) :
    (envelope.withOrigin id).isEchoOf other = decide (id = other) := by
  cases id
  cases other
  apply Bool.eq_iff_iff.mpr
  simp [isEchoOf]

end Envelope

end OaGateway.Core
