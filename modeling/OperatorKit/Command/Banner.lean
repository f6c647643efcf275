/-!
# The banner

What both programs print before they work.
-/

namespace OperatorKit.Command

/-- The lines of the banner. -/
def bannerLines (mode : String) : List String :=
  ["",
   "",
   "    ____  _       _     _",
   "   |  _ \\| | __ _(_) __| |   ___  _ __  ___",
   "   | |_) | |/ _` | |/ _` |  / _ \\| '_ \\/ __|",
   "   |  __/| | (_| | | (_| | | (_) | |_) \\__ \\",
   "   |_|   |_|\\__,_|_|\\__,_|  \\___/| .__/|___/",
   "                                 |_|",
   "   ==========================================",
   "   Mode: " ++ mode,
   "",
   ""]

/-- The banner for a program's mode of work. -/
def banner (mode : String) : String :=
  (bannerLines mode).foldr (fun l rest => l ++ "\n" ++ rest) ""

end OperatorKit.Command
