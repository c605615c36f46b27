import ApiClient.Json.Basic

namespace ApiClient

structure Param where
  name : String
  location : String
  description : Option String
  required : Bool
  type : String
  isObject : Bool
  isComplexType : Bool
  aliasName : Option String
deriving DecidableEq, Repr

structure ParamGroups where
  query : List Param
  path : List Param
  cookie : List Param
deriving DecidableEq, Repr

namespace ParamGroups

def isEmpty (g : ParamGroups) : Bool :=
  g.query.isEmpty && g.path.isEmpty && g.cookie.isEmpty

def toList (g : ParamGroups) : List Param :=
  g.path ++ g.query ++ g.cookie

end ParamGroups

structure BodyProperty where
  key : String
  type : String
  required : Bool
  description : Option String
deriving DecidableEq, Repr

inductive BodyShape where
  | properties (properties : List BodyProperty)
  | whole (type : String)
deriving DecidableEq, Repr

/-- The media type is empty when any is accepted. -/
structure Body where
  mediaType : String
  required : Bool
  shape : BodyShape
deriving DecidableEq, Repr

structure FileField where
  title : String
  multiple : Bool
deriving DecidableEq, Repr

structure ResponseType where
  mediaType : String
  type : String
deriving DecidableEq, Repr

def ResponseType.unknown : ResponseType :=
  ⟨"*/*", "any"⟩

structure Call where
  functionName : String
  typeName : String
  method : String
  rawPath : String
  path : String
  pathInComment : String
  summary : Option String
  description : String
  params : ParamGroups
  hasParams : Bool
  body : Option Body
  file : Option (List FileField)
  response : ResponseType
  hasHeader : Bool
  hasFormData : Bool
  hasPathVariables : Bool
  hasApiPrefix : Bool
  options : List (String × Json)
  vendorVersion : Option String

structure ServiceUnit where
  tag : String
  fileName : String
  className : String
  instanceName : String
  operations : List Call

structure Controller where
  fileName : String
  controllerName : String
deriving DecidableEq, Repr

def ServiceUnit.controller (u : ServiceUnit) : Controller :=
  ⟨u.fileName, u.className⟩

structure Property where
  name : String
  type : String
  description : String
  required : Bool
  format : Option String
deriving DecidableEq, Repr

/-- One block of a named type: a parent by name, or members of its own. -/
inductive PropertyGroup where
  | inherited (typeName : String)
  | fields (properties : List Property)
deriving DecidableEq, Repr

structure Interface where
  typeName : String
  type : String
  parentGroups : List String
  props : List PropertyGroup
  isEnum : Bool
deriving DecidableEq, Repr

/-- How a call maps to the vendor's own service; `path` is its path before prefixing. -/
structure VendorMapping where
  path : String
  vendorAction : Option String
  vendorProduct : Option String
  vendorVersion : Option String
deriving DecidableEq, Repr

structure Client where
  version : String
  scope : String
  services : List ServiceUnit
  interfaces : List Interface
  mappings : List VendorMapping
  controllers : List Controller

def Client.callCount (c : Client) : Nat :=
  (c.services.flatMap fun unit => unit.operations).length

end ApiClient
