/-!
Environment variables, and the ones that a task looks at.
-/
namespace ImageRelease

abbrev Environment := List (String × String)

namespace Environment

def get? (env : Environment) (name : String) : Option String := env.lookup name

def workspace : String := "LB_TASKS_WORKSPACE"

def tag : String := "LB_TASKS_TAG"

def dockerUser : String := "LB_TASKS_DOCKER_USER"

def buildLimit : String := "LB_TASKS_TIMEOUT_BUILD"

def commandLimit : String := "LB_TASKS_TIMEOUT_COMMAND"

end Environment

end ImageRelease
