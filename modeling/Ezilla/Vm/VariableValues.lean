import Ezilla.Template

/-!
# The values of variables

The CONTEXT and the requirements of a VM may refer to values of the VM, of its images and
networks and of its owner: `$NAME`, `$NAME[ATTR]` and `$NAME[ATTR, ATTR2=VALUE]`.

* `VariableScope`: what the values are taken from;
* `insertSingle`, `insertVector`: the two functions that write a value;
* `Reference`, `VariableScope.denotes`: a reference and its value.
-/

namespace Ezilla

/-- An object of a pool, as a reference reads it. -/
structure ReferredObject where
  /-- `to_xml64` -/
  xml64 : String
  tmpl : Template

/-- The attribute that a reference names of an object. -/
def ReferredObject.attribute (obj : ReferredObject) (attrName : String) : String :=
  if attrName = "TEMPLATE" then obj.xml64 else obj.tmpl.getString attrName

/-- The VM and the pools. -/
structure VariableScope where
  uid : Int
  uname : String
  gid : Int
  gname : String
  name : String
  /-- `to_xml64` of the VM -/
  xml64 : String
  tmpl : Template
  userTmpl : Template
  images : Int → Option ReferredObject
  networks : Int → Option ReferredObject
  /-- the owner of the VM -/
  user : Option ReferredObject

namespace VariableScope

variable (s : VariableScope)

/-- The id in a field of the first vector attribute that has a value: what
`get_image_attribute` and `get_network_attribute` look up in the VM. -/
def selectedId (kind idField field value : String) : Option Int :=
  ((s.tmpl.vectors kind).find? fun values =>
    Attribute.vectorValue values field = value).bind fun values =>
      (readInt (Attribute.vectorValue values idField)).filter (· ≠ -1)

/-- `get_image_attribute`. -/
def getImageAttribute (attrName imgName imgValue : String) : String :=
  if imgName ≠ "IMAGE" ∧ imgName ≠ "IMAGE_ID" then ""
  else
    (((s.selectedId "DISK" "IMAGE_ID" imgName imgValue).bind s.images).map fun img =>
      img.attribute attrName).getD ""

/-- `get_network_attribute`. -/
def getNetworkAttribute (attrName netName netValue : String) : String :=
  if netName ≠ "NETWORK" ∧ netName ≠ "NETWORK_ID" then ""
  else
    (((s.selectedId "NIC" "NETWORK_ID" netName netValue).bind s.networks).map fun vn =>
      vn.attribute attrName).getD ""

/-- `get_user_attribute`. -/
def getUserAttribute (attrName : String) : String :=
  (s.user.map fun user => user.attribute attrName).getD ""

/-- `insert_single`. -/
def insertSingle (name : String) : String :=
  if name = "TEMPLATE" then s.xml64
  else if name = "UID" then toString s.uid
  else if name = "UNAME" then s.uname
  else if name = "GID" then toString s.gid
  else if name = "GNAME" then s.gname
  else if name = "NAME" then s.name
  else
    let value := s.tmpl.getString name
    if value = "" then s.userTmpl.getString name else value

/-- `insert_vector`; `vvar` is empty for the first attribute. -/
def insertVector (name vname vvar vval : String) : String :=
  if name = "NETWORK" then s.getNetworkAttribute vname vvar vval
  else if name = "IMAGE" then s.getImageAttribute vname vvar vval
  else if name = "USER" then s.getUserAttribute vname
  else
    let chosen :=
      if vvar = "" then (s.tmpl.get name).head?
      else (s.tmpl.get name).find? fun
        | .vector _ values => Attribute.vectorValue values vvar = vval
        | .single _ _ => false
    (chosen.map (Attribute.valueText vname)).getD ""

end VariableScope

/-- A reference to a value, with the words as they are written. -/
inductive Reference where
  /-- `$NAME` -/
  | single (name : String)
  /-- `$NAME[ATTR]` -/
  | vector (name vname : String)
  /-- `$NAME[ATTR, ATTR2=VALUE]` -/
  | selected (name vname vvar vval : String)
  deriving DecidableEq, Repr

/-- The value of a reference, as the actions of the grammar write it. -/
def VariableScope.denotes (s : VariableScope) : Reference → String
  | .single name => s.insertSingle name.toUpper
  | .vector name vname => s.insertVector name.toUpper vname.toUpper "" ""
  | .selected name vname vvar vval =>
    s.insertVector name.toUpper vname.toUpper vvar.toUpper vval

end Ezilla
