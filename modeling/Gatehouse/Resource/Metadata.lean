import Gatehouse.Json.Basic
import Gatehouse.Table
import Gatehouse.Time.Instant

/-!
# Metadata of cluster objects

What every object of the cluster carries beside its content: its name, its namespace, who owns it,
and who still has to let go of it before it can be deleted (its finalizers).
-/

namespace Gatehouse.Resource

/-- A reference to the object that another one belongs to. -/
structure OwnerReference where
  apiVersion : String
  kind : String
  name : String
  uid : String
  blockOwnerDeletion : Option Bool := none
  controller : Option Bool := none
  deriving DecidableEq, Repr

/-- Which fields were written by whom. -/
structure ManagedFields where
  apiVersion : Option String := none
  fieldsType : Option String := none
  fieldsV1 : Option Json := none
  manager : Option String := none
  operation : Option String := none
  subresource : Option String := none
  time : Option Instant := none

/-- The metadata of an object. -/
structure Metadata where
  annotations : Option (Table String String) := none
  creationTimestamp : Option Instant := none
  deletionGracePeriodSeconds : Option Int := none
  /-- Set once someone asked to delete the object. -/
  deletionTimestamp : Option Instant := none
  finalizers : Option (List String) := none
  /-- What the name of a new object is to start with. -/
  generateName : Option String := none
  generation : Option Int := none
  labels : Option (Table String String) := none
  managedFields : Option (List ManagedFields) := none
  name : Option String := none
  inNamespace : Option String := none
  ownerReferences : Option (List OwnerReference) := none
  resourceVersion : Option String := none
  selfLink : Option String := none
  uid : Option String := none

namespace Metadata

/-- The name of an object, or what its name will start with. -/
def knownName (m : Metadata) : String := (m.name <|> m.generateName).getD ""

/-- The namespace of an object, or the empty one. -/
def knownNamespace (m : Metadata) : String := m.inNamespace.getD ""

/-- The finalizers of an object in order. -/
def finalizerList (m : Metadata) : List String := m.finalizers.getD []

/-- The owners of an object. -/
def owners (m : Metadata) : List OwnerReference := m.ownerReferences.getD []

/-- Is the object about to be deleted? -/
def isDeleting (m : Metadata) : Bool := m.deletionTimestamp.isSome

end Metadata

/-- The key of an object among those of its kind. -/
def keyOf (ns name : String) : String := ns ++ "/" ++ name

/-- An object of the cluster. -/
structure Object (Spec Status : Type) where
  metadata : Metadata
  spec : Spec
  status : Option Status := none

namespace Object

variable {Spec Status : Type}

/-- The name of an object, or what its name will start with. -/
def name (o : Object Spec Status) : String := o.metadata.knownName

/-- The key of an object among those of its kind. -/
def key (o : Object Spec Status) : String := keyOf o.metadata.knownNamespace o.name

/-- Is the object about to be deleted? -/
def isDeleting (o : Object Spec Status) : Bool := o.metadata.isDeleting

/-- The finalizers of an object in order. -/
def finalizers (o : Object Spec Status) : List String := o.metadata.finalizerList

/-- The object with other finalizers. -/
def withFinalizers (o : Object Spec Status) (fs : List String) : Object Spec Status :=
  { o with metadata := { o.metadata with finalizers := some fs } }

/-- The object with another status. -/
def withStatus (o : Object Spec Status) (status : Status) : Object Spec Status :=
  { o with status := some status }

@[simp] theorem key_withFinalizers (o : Object Spec Status) (fs : List String) :
    (o.withFinalizers fs).key = o.key := rfl

@[simp] theorem isDeleting_withFinalizers (o : Object Spec Status) (fs : List String) :
    (o.withFinalizers fs).isDeleting = o.isDeleting := rfl

@[simp] theorem finalizers_withFinalizers (o : Object Spec Status) (fs : List String) :
    (o.withFinalizers fs).finalizers = fs := rfl

@[simp] theorem key_withStatus (o : Object Spec Status) (s : Status) :
    (o.withStatus s).key = o.key := rfl

@[simp] theorem isDeleting_withStatus (o : Object Spec Status) (s : Status) :
    (o.withStatus s).isDeleting = o.isDeleting := rfl

@[simp] theorem finalizers_withStatus (o : Object Spec Status) (s : Status) :
    (o.withStatus s).finalizers = o.finalizers := rfl

end Object

/-- The kind of an object and where the cluster serves it. -/
structure Kind where
  group : String
  version : String
  name : String
  plural : String
  singular : String

/-- Group and version of a kind. -/
def Kind.apiVersion (k : Kind) : String := k.group ++ "/" ++ k.version

end Gatehouse.Resource
