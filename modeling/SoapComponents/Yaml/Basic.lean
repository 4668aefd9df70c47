/-!
Documents of nested data: texts, lists of texts, and maps with texts as keys.
-/

set_option autoImplicit false

namespace SoapComponents

inductive Yaml where
  | text (content : String)
  | list (items : List String)
  | map (entries : List (String × Yaml))

end SoapComponents
