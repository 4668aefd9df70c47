import SoapComponents.Interface.Basic
import SoapComponents.Prefix.NamespaceMap
import SoapComponents.Service.Operation

/-!
Components: all that is written into the module that sends the request of one operation.
-/

set_option autoImplicit false

namespace SoapComponents

structure HeaderMarkup where
  header : Header
  markup : String

structure ResponseShapes where
  props : Interface
  interfaces : List Interface

structure Component where
  requestName : String
  tags : Table (List String)
  aliases : List TypeAlias
  props : Interface
  interfaces : List Interface
  envelope : String
  spaces : Table String
  body : String
  headers : List HeaderMarkup
  response : Option ResponseShapes

end SoapComponents
