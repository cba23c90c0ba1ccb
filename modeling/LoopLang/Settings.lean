import LoopLang.Text.Quote

/-!
# Settings

What a caller may choose: whether each step is traced, whether sources are put into upper
case before they are scanned, and the prompt that is shown before each value is read.
-/
namespace LoopLang

structure Settings where
  trace : Bool := false
  upcase : Bool := false
  prompt : String := "IN (\x7bname\x7d) <== : "

def flagText (flag : Bool) : String :=
  if flag then "True" else "False"

def Settings.describe (settings : Settings) : String :=
  "Config(debug=" ++ flagText settings.trace ++ ", upcase=" ++ flagText settings.upcase ++
    ", read_prompt=" ++ Text.quote settings.prompt ++ ")"

end LoopLang
