/-!
# Byte order marks
-/
namespace NeutralSchema.Text

def withoutMark : List Char → List Char
  | '\uFEFF' :: rest => rest
  | cs => cs

end NeutralSchema.Text
