import SourceAudit.Rules.Matching

/-!
# The standard rules

The rules that come with the tool: dangerous calls, injection, file and network access, backdoors
and leaks, for Python, Go and Java.
-/

namespace SourceAudit.Rules

def rule (id nm pat sev lang desc : String) : Value :=
  .record [("id", .text id), ("name", .text nm), ("pattern", .text pat),
    ("severity", .text sev), ("description", .text desc), ("language", .text lang)]

def standard : List Value := [rule "webshell_eval" "WebShell - eval() Usage" "eval\\s*\\("
    "critical" "python" "Detects usage of eval() function which can execute arbitrary code",
  rule "webshell_exec" "WebShell - exec() Usage" "exec\\s*\\(" "critical" "python"
    "Detects usage of exec() function which can execute arbitrary code",
  rule "webshell_import" "WebShell - __import__() Usage" "__import__\\s*\\(" "high" "python"
    "Detects usage of __import__() which can dynamically import modules",
  rule "webshell_compile" "WebShell - compile() Usage" "compile\\s*\\(" "high" "python"
    "Detects usage of compile() which can compile and execute code",
  rule "webshell_getattr" "WebShell - getattr() with Dangerous Functions"
    "getattr\\s*\\([^,]+,\\s*['\"](eval|exec|__import__|compile)['\"]" "high" "python"
    "Detects getattr() calls that may access dangerous functions",
  rule "sql_injection_string_concat" "SQL Injection - String Concatenation"
    "(SELECT|INSERT|UPDATE|DELETE|DROP|CREATE|ALTER)\\s+.*\\+.*['\"]" "high" "all"
    "Detects SQL queries with string concatenation that may lead to injection",
  rule "sql_injection_format" "SQL Injection - String Formatting"
    "(SELECT|INSERT|UPDATE|DELETE|DROP|CREATE|ALTER).*%[sd]" "high" "all"
    "Detects SQL queries using string formatting that may be vulnerable",
  rule "sql_injection_raw_sql" "SQL Injection - Raw SQL Execution"
    "(execute|executemany|query)\\s*\\([^)]*\\+[^)]*\\)" "high" "all"
    "Detects raw SQL execution with string concatenation",
  rule "rce_os_system" "RCE - os.system() Call" "os\\.system\\s*\\(" "critical" "python"
    "Detects os.system() calls which can execute system commands",
  rule "rce_subprocess_call" "RCE - subprocess.call()" "subprocess\\.(call|run|Popen)\\s*\\("
    "critical" "python" "Detects subprocess calls which can execute system commands",
  rule "rce_os_popen" "RCE - os.popen() Call" "os\\.popen\\s*\\(" "high" "python"
    "Detects os.popen() calls which can execute commands",
  rule "rce_commands_getoutput" "RCE - commands.getoutput()" "commands\\.getoutput\\s*\\("
    "high" "python" "Detects commands.getoutput() calls (Python 2 legacy, but still dangerous)",
  rule "file_traversal" "Path Traversal Attack" "\\.\\./|\\.\\.\\\\" "medium" "all"
    "Detects path traversal patterns (../ or ..\\)",
  rule "file_sensitive_read" "Sensitive File Read"
    "open\\s*\\([^)]*['\"](/etc/passwd|/etc/shadow|C:\\\\Windows\\\\System32|\\.env|\\.git/config)['\"]"
    "high" "python" "Detects attempts to read sensitive system files",
  rule "file_arbitrary_write" "Arbitrary File Write"
    "open\\s*\\([^)]*['\"]w['\"]|open\\s*\\([^)]*['\"]a['\"]" "medium" "python"
    "Detects file write operations (may be legitimate, but needs review)",
  rule "network_socket_connect" "Network - socket.connect()" "\\.connect\\s*\\(" "medium" "all"
    "Detects socket connection attempts", rule "network_urllib" "Network - urllib Usage"
    "urllib\\.(urlopen|request|urlretrieve)" "low" "python"
    "Detects urllib usage for network operations",
  rule "network_requests" "Network - requests Library" "requests\\.(get|post|put|delete|patch)"
    "low" "python"
    "Detects requests library usage (usually legitimate, but may indicate data exfiltration)",
  rule "backdoor_hardcoded_password" "Backdoor - Hardcoded Password"
    "(password|passwd|pwd)\\s*=\\s*['\"][^'\"]\x7b3,\x7d['\"]" "high" "all"
    "Detects hardcoded passwords in code",
  rule "backdoor_secret_key" "Backdoor - Hardcoded Secret Key"
    "(secret|key|token|api_key)\\s*=\\s*['\"][^'\"]\x7b10,\x7d['\"]" "high" "all"
    "Detects hardcoded secret keys or API tokens",
  rule "backdoor_base64_decode" "Backdoor - Base64 Decoding" "base64\\.(b64decode|decodestring)"
    "medium" "all" "Detects base64 decoding which may be used to obfuscate malicious code",
  rule "backdoor_reverse_shell" "Backdoor - Reverse Shell Pattern"
    "(socket|subprocess|os\\.system).*['\"](bash|sh|cmd|powershell).*['\"]" "critical" "all"
    "Detects potential reverse shell patterns",
  rule "info_debug_print" "Information Disclosure - Debug Print"
    "print\\s*\\([^)]*(password|secret|key|token|api)" "low" "python"
    "Detects print statements that may leak sensitive information",
  rule "info_stack_trace" "Information Disclosure - Stack Trace Exposure"
    "traceback\\.print_exc|sys\\.exc_info" "low" "python"
    "Detects stack trace printing which may expose system information",
  rule "go_rce_exec_command" "Go RCE - exec.Command()" "exec\\.Command\\s*\\(" "critical" "go"
    "Detects exec.Command() calls which can execute system commands",
  rule "go_os_exec" "Go RCE - os/exec Usage" "os/exec|exec\\.(Command|Run|Start)" "critical" "go"
    "Detects os/exec package usage for command execution",
  rule "go_network_dial" "Go Network - net.Dial()" "net\\.Dial\\s*\\(" "medium" "go"
    "Detects network dial operations",
  rule "go_sql_injection" "Go SQL Injection - String Concatenation"
    "(Query|Exec|QueryRow)\\s*\\([^)]*\\+[^)]*\\)" "high" "go"
    "Detects SQL queries with string concatenation", rule "go_file_write" "Go File Write Operation"
    "os\\.(Create|OpenFile|WriteFile)\\s*\\(" "medium" "go" "Detects file write operations",
  rule "java_rce_runtime_exec" "Java RCE - Runtime.exec()"
    "Runtime\\.getRuntime\\(\\)\\.exec\\s*\\(" "critical" "java"
    "Detects Runtime.exec() calls which can execute system commands",
  rule "java_rce_processbuilder" "Java RCE - ProcessBuilder" "(new\\s+)?ProcessBuilder\\s*\\("
    "critical" "java" "Detects ProcessBuilder usage for command execution",
  rule "java_sql_injection" "Java SQL Injection - String Concatenation"
    "(Statement|PreparedStatement)\\.(executeQuery|executeUpdate|execute)\\s*\\([^)]*\\+[^)]*\\)"
    "high" "java" "Detects SQL queries with string concatenation",
  rule "java_file_operation" "Java File Operation"
    "(FileWriter|FileOutputStream|PrintWriter)\\s*\\(" "medium" "java"
    "Detects file write operations", rule "java_network_connection" "Java Network Connection"
    "(Socket|URL|HttpURLConnection)\\s*\\(|connect\\s*\\(" "medium" "java"
    "Detects network connection operations", rule "java_deserialization" "Java Deserialization Risk"
    "(ObjectInputStream|readObject|readUnshared)\\s*\\(" "high" "java"
    "Detects deserialization operations which may be vulnerable"]

def standardFile : Value :=
  .record [("rules", .list standard)]

end SourceAudit.Rules
